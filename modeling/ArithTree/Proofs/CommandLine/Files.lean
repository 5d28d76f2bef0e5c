import ArithTree.Directory

/-!
# Following paths and writing files

A path is followed by a function that fails in many ways. This module says by rules what a
path leads to, and what is left of a write once its path has been followed.

* `Directory.Moves` — one component of a path: `.`, `..`, a folder, a link, a file, or a name
  that is free. `Directory.Reaches` — the components of a path, one after the other.
  `Directory.follow_eq_ok_iff` says that paths are followed by these rules, and
  `Directory.Leads` is what the rules come to for a whole path.
* `Directory.Reads` — the path leads to a file that may be read, and the file holds this text.
* `Directory.Opens` — the path leads to a file that may be written to, or to a free name in a
  folder that may get new names. A write succeeds exactly on these paths, whatever it writes
  (`Directory.exists_write_iff`).
* `Directory.Overwritten` — the frame of a write: one file has its content, under the name that
  was free if it is a new one, and every other file and name is as it was
  (`Directory.overwritten_of_write`).
* `Directory.Opens.overwritten` — afterwards the path leads to the file that was written.

Files are told apart by their numbers and not by their names, so a file that is written under
one of its names, or through a link, has its content under all of them. A new file gets a
number that no name stands for (`Directory.lt_fresh`). The last result is a matter of the rules:
a write takes no entry away, so every step to its target can be taken again.
-/

namespace ArithTree

namespace Directory

/-! ### What a path leads to -/

/-- The names in the folder may be looked up. -/
def Searchable (directory : Directory) (folder : FileName) : Prop :=
  ∃ access, directory.lookup folder = some (.folder access) ∧ access.search = true

/-- The component is a name, and neither too long for one nor in the way of a slash at the
end of a path for writing. -/
structure Named (purpose : Purpose) (trailing : Bool) (component : String) (last : Bool) :
    Prop where
  ne_here : component ≠ "."
  ne_up : component ≠ ".."
  open_end : ¬ (last ∧ trailing ∧ purpose = .write)
  length_le : ¬ Path.nameLimit < component.utf8ByteSize

/-- **What one component leads to**, from a folder whose names may be looked up. A path may
only stop at its last component, and not in front of a slash. -/
inductive Moves (directory : Directory) (purpose : Purpose) (trailing : Bool) (folder : FileName) :
    String → Bool → Move → Prop
  | here {last} : Moves directory purpose trailing folder "." last (.enter folder)
  | up {last} : Moves directory purpose trailing folder ".." last (.enter folder.parent)
  | folder {component last access} (hnamed : Named purpose trailing component last)
      (hentry : directory.lookup (folder.child component) = some (.folder access)) :
      Moves directory purpose trailing folder component last (.enter (folder.child component))
  | link {component last path} (hnamed : Named purpose trailing component last)
      (hentry : directory.lookup (folder.child component) = some (.link path))
      (hpath : path.isEmpty = false) :
      Moves directory purpose trailing folder component last (.link path)
  | file {component number} (hnamed : Named purpose trailing component true)
      (htrailing : trailing = false)
      (hentry : directory.lookup (folder.child component) = some (.file number)) :
      Moves directory purpose trailing folder component true (.stop (.file number))
  | vacant {component} (hnamed : Named purpose trailing component true)
      (htrailing : trailing = false) (hentry : directory.lookup (folder.child component) = none) :
      Moves directory purpose trailing folder component true
        (.stop (.vacant (folder.child component)))

/-- **What components lead to**, from a folder and with at most so many links on the way. -/
inductive Reaches (directory : Directory) (purpose : Purpose) :
    Nat → Bool → FileName → List String → Target → Prop
  | done {links trailing folder} :
      Reaches directory purpose links trailing folder [] (.folder folder)
  | enter {links trailing folder component rest next target}
      (hsearch : directory.Searchable folder)
      (hmove : directory.Moves purpose trailing folder component rest.isEmpty (.enter next))
      (h : Reaches directory purpose links trailing next rest target) :
      Reaches directory purpose links trailing folder (component :: rest) target
  | link {links trailing folder component rest path target}
      (hsearch : directory.Searchable folder)
      (hmove : directory.Moves purpose trailing folder component rest.isEmpty (.link path))
      (h : Reaches directory purpose links
        (trailing || rest.isEmpty && (Path.ofString path).trailing)
        ((Path.ofString path).origin folder) ((Path.ofString path).components ++ rest) target) :
      Reaches directory purpose (links + 1) trailing folder (component :: rest) target
  | stop {links trailing folder component rest target}
      (hsearch : directory.Searchable folder)
      (hmove : directory.Moves purpose trailing folder component rest.isEmpty (.stop target)) :
      Reaches directory purpose links trailing folder (component :: rest) target

variable {directory before after : Directory} {purpose : Purpose} {links number : Nat}
  {trailing last : Bool} {folder name : FileName} {component path text : String}
  {components : List String} {target : Target} {move : Move} {content : ByteArray} {entry : Entry}
  {onLink : Bool → FileName → List String → Except FileError Target}

theorem access_eq_ok_iff {access : Access} :
    directory.access folder = .ok access ↔ directory.lookup folder = some (.folder access) := by
  unfold Directory.access
  cases directory.lookup folder with
  | none => simp
  | some entry => cases entry <;> simp

/-- A component that is a name of its own is looked up. -/
theorem move_named (hsearch : directory.Searchable folder)
    (hnamed : Named purpose trailing component last) :
    directory.move purpose trailing folder component last =
      match directory.lookup (folder.child component) with
      | some (.folder _) => .ok (.enter (folder.child component))
      | some (.link path) => if path.isEmpty then .error .noEntry else .ok (.link path)
      | some (.file number) =>
        if last && !trailing then .ok (.stop (.file number)) else .error .notFolder
      | none =>
        if last && !trailing then .ok (.stop (.vacant (folder.child component)))
        else .error .noEntry := by
  obtain ⟨access, hfolder, hopen⟩ := hsearch
  unfold Directory.move
  rw [access_eq_ok_iff.mpr hfolder]
  dsimp only
  rw [if_neg (by simp [hopen]), if_neg hnamed.ne_here, if_neg hnamed.ne_up,
    if_neg hnamed.open_end]
  exact if_neg hnamed.length_le

/-- What stands under a name decides what the component leads to. -/
theorem moves_of_named (hsearch : directory.Searchable folder)
    (hnamed : Named purpose trailing component last)
    (h : directory.move purpose trailing folder component last = .ok move) :
    directory.Moves purpose trailing folder component last move := by
  rw [move_named hsearch hnamed] at h
  split at h
  · next hentry =>
    cases h
    exact .folder hnamed hentry
  · next hentry =>
    split at h
    · cases h
    next hpath =>
    cases h
    exact .link hnamed hentry (by simpa using hpath)
  · next hentry =>
    split at h
    · next hlast =>
      cases h
      obtain ⟨rfl, htrailing⟩ : last = true ∧ trailing = false := by simpa using hlast
      exact .file hnamed htrailing hentry
    · cases h
  · next hentry =>
    split at h
    · next hlast =>
      cases h
      obtain ⟨rfl, htrailing⟩ : last = true ∧ trailing = false := by simpa using hlast
      exact .vacant hnamed htrailing hentry
    · cases h

theorem moves_of_move
    (h : directory.move purpose trailing folder component last = .ok move) :
    directory.Searchable folder ∧ directory.Moves purpose trailing folder component last move := by
  have hmove := h
  unfold Directory.move at h
  cases haccess : directory.access folder with
  | error error =>
    rw [haccess] at h
    cases h
  | ok access =>
    simp only [haccess] at h
    split at h
    · cases h
    next hopen =>
    have hsearch : directory.Searchable folder :=
      ⟨access, access_eq_ok_iff.mp haccess, by simpa using hopen⟩
    refine ⟨hsearch, ?_⟩
    -- `.` and `..` are no names of their own
    split at h
    · next hhere =>
      subst hhere
      cases h
      exact .here
    split at h
    · next hup =>
      subst hup
      cases h
      exact .up
    -- every other component is one, unless a slash or its length is in the way
    split at h
    · cases h
    split at h
    · cases h
    next hhere hup hend hlong =>
    exact moves_of_named hsearch ⟨hhere, hup, hend, hlong⟩ hmove

theorem move_of_moves (hsearch : directory.Searchable folder)
    (h : directory.Moves purpose trailing folder component last move) :
    directory.move purpose trailing folder component last = .ok move := by
  cases h with
  | here | up =>
    obtain ⟨access, hfolder, hopen⟩ := hsearch
    simp [Directory.move, access_eq_ok_iff.mpr hfolder, hopen]
  | folder hnamed hentry => rw [move_named hsearch hnamed, hentry]
  | link hnamed hentry hpath => simp [move_named hsearch hnamed, hentry, hpath]
  | file hnamed htrailing hentry =>
    subst htrailing
    simp [move_named hsearch hnamed, hentry]
  | vacant hnamed htrailing hentry =>
    subst htrailing
    simp [move_named hsearch hnamed, hentry]

/-- **One component is followed by the rules.** -/
theorem move_eq_ok_iff :
    directory.move purpose trailing folder component last = .ok move ↔
      directory.Searchable folder ∧
        directory.Moves purpose trailing folder component last move :=
  ⟨moves_of_move, fun h => move_of_moves h.1 h.2⟩

/-- A walk follows the rules, if what it does with a link leads where the rules lead with one
link less. -/
theorem reaches_of_walk
    (hlink : ∀ {trailing folder components}, onLink trailing folder components = .ok target →
      ∃ left, links = left + 1 ∧ directory.Reaches purpose left trailing folder components target)
    (h : directory.walk purpose onLink trailing folder components = .ok target) :
    directory.Reaches purpose links trailing folder components target := by
  induction components generalizing folder with
  | nil =>
    cases h
    exact .done
  | cons component rest ih =>
    rw [walk] at h
    cases hmove : directory.move purpose trailing folder component rest.isEmpty with
    | error error =>
      rw [hmove] at h
      cases h
    | ok move =>
      rw [hmove] at h
      obtain ⟨hsearch, hmoves⟩ := move_eq_ok_iff.mp hmove
      cases move with
      | enter next => exact .enter hsearch hmoves (ih h)
      | link path =>
        obtain ⟨left, rfl, hreaches⟩ := hlink h
        exact .link hsearch hmoves hreaches
      | stop found =>
        cases h
        exact .stop hsearch hmoves

/-- What is done with a link, when so many may be followed. -/
def afterLink (directory : Directory) (purpose : Purpose) :
    Nat → Bool → FileName → List String → Except FileError Target
  | 0 => fun _ _ _ => .error .tooManyLinks
  | links + 1 => directory.follow purpose links

theorem follow_eq_walk (links : Nat) :
    directory.follow purpose links
      = directory.walk purpose (directory.afterLink purpose links) := by
  cases links <;> rfl

/-- **Components are followed by the rules.** -/
theorem follow_eq_ok_iff :
    directory.follow purpose links trailing folder components = .ok target ↔
      directory.Reaches purpose links trailing folder components target := by
  constructor
  · intro h
    induction links generalizing trailing folder components with
    | zero =>
      -- no link may be followed
      rw [follow_eq_walk] at h
      exact reaches_of_walk (by rintro _ _ _ ⟨⟩) h
    | succ links ih =>
      rw [follow_eq_walk] at h
      exact reaches_of_walk (fun hlink => ⟨links, rfl, ih hlink⟩) h
  · intro h
    induction h with
    | done => rw [follow_eq_walk, walk]
    | enter hsearch hmove _ ih =>
      rw [follow_eq_walk] at ih ⊢
      rw [walk, move_of_moves hsearch hmove]
      exact ih
    | link hsearch hmove _ ih =>
      rw [follow_eq_walk, walk, move_of_moves hsearch hmove]
      exact ih
    | stop hsearch hmove => rw [follow_eq_walk, walk, move_of_moves hsearch hmove]

/-- **What a path leads to**: it is neither empty nor too long, and its components lead there
from the root or from the working directory. -/
structure Leads (directory : Directory) (purpose : Purpose) (path : String) (target : Target) :
    Prop where
  ne_empty : path.isEmpty = false
  length_lt : path.utf8ByteSize < Path.lengthLimit
  reaches : directory.Reaches purpose Path.linkLimit (Path.ofString path).trailing
    ((Path.ofString path).origin directory.here) (Path.ofString path).components target

theorem locate_eq_ok_iff :
    directory.locate purpose path = .ok target ↔ directory.Leads purpose path target := by
  unfold locate
  constructor
  · intro h
    split at h
    · cases h
    next hempty =>
    split at h
    · cases h
    next hlong => exact ⟨by simpa using hempty, by omega, follow_eq_ok_iff.mp h⟩
  · rintro ⟨hempty, hlong, hreaches⟩
    rw [if_neg (by simp [hempty]), if_neg (by omega)]
    exact follow_eq_ok_iff.mpr hreaches

/-- A path leads to one place. -/
theorem Leads.unique {target' : Target} (h : directory.Leads purpose path target)
    (h' : directory.Leads purpose path target') : target = target' :=
  Except.ok.inj ((locate_eq_ok_iff.mpr h).symm.trans (locate_eq_ok_iff.mpr h'))

/-! ### Reading and writing -/

/-- **The path reads as a text**: it leads to a file that may be read, and the text in UTF-8 is
its content. -/
def Reads (directory : Directory) (path text : String) : Prop :=
  ∃ number, directory.Leads .read path (.file number) ∧
    (directory.files number).access.read = true ∧
    (directory.files number).content = text.toUTF8

theorem fromUTF8?_eq_some_iff {bytes : ByteArray} :
    String.fromUTF8? bytes = some text ↔ bytes = text.toUTF8 := by
  unfold String.fromUTF8?
  constructor
  · intro h
    split at h
    · cases h
      rfl
    · cases h
  · rintro rfl
    rw [String.toUTF8, dif_pos text.isValidUTF8]
    rfl

theorem read_eq_ok_iff : directory.read path = .ok text ↔ directory.Reads path text := by
  unfold Directory.read Reads
  simp only [← locate_eq_ok_iff, ← fromUTF8?_eq_some_iff]
  cases directory.locate .read path with
  | error error => simp
  | ok target =>
    cases target with
    | vacant name => simp
    | folder name =>
      dsimp only
      cases directory.access name <;> simp
    | file number =>
      cases hread : (directory.files number).access.read with
      | false => simp [hread]
      | true =>
        cases htext : String.fromUTF8? (directory.files number).content <;> simp [hread, htext]

/-- A path reads as one text. -/
theorem Reads.unique {text' : String} (h : directory.Reads path text)
    (h' : directory.Reads path text') : text = text' :=
  Except.ok.inj ((read_eq_ok_iff.mpr h).symm.trans (read_eq_ok_iff.mpr h'))

/-- What a path leads to may be written to: a file that may be, or a free name in a folder that
new names may be put in. -/
def Writable (directory : Directory) : Target → Prop
  | .folder _ => False
  | .file number => (directory.files number).access.write = true
  | .vacant name =>
    ∃ access, directory.lookup name.parent = some (.folder access) ∧ access.write = true

/-- **The path can be written to.** -/
structure Opens (directory : Directory) (path : String) (target : Target) : Prop where
  leads : directory.Leads .write path target
  writable : directory.Writable target

/-- A write puts its text where its path leads to, if that may be written to. -/
theorem write_eq_ok_iff :
    directory.write path text = .ok after ↔
      (∃ number, directory.Opens path (.file number) ∧
        after = directory.overwrite number text.toUTF8) ∨
      (∃ name, directory.Opens path (.vacant name) ∧
        after = directory.create name text.toUTF8) := by
  unfold Directory.write
  constructor
  · intro h
    cases hlocate : directory.locate .write path with
    | error error =>
      rw [hlocate] at h
      cases h
    | ok target =>
      have hleads : directory.Leads .write path target := locate_eq_ok_iff.mp hlocate
      rw [hlocate] at h
      cases target with
      | folder name => cases h
      | file number =>
        -- the file itself says whether it may be written to
        dsimp only at h
        split at h
        · cases h
        next hwrite =>
        cases h
        exact .inl ⟨number, ⟨hleads, by simpa [Writable] using hwrite⟩, rfl⟩
      | vacant name =>
        -- for a new name the folder does, and it may be missing
        cases haccess : directory.access name.parent with
        | error error =>
          simp only [haccess] at h
          cases h
        | ok access =>
          simp only [haccess] at h
          split at h
          · cases h
          next hwrite =>
          cases h
          have hwritable : directory.Writable (.vacant name) :=
            ⟨access, access_eq_ok_iff.mp haccess, by simpa using hwrite⟩
          exact .inr ⟨name, ⟨hleads, hwritable⟩, rfl⟩
  · rintro (⟨number, hopens, rfl⟩ | ⟨name, hopens, rfl⟩)
    · have hwrite : (directory.files number).access.write = true := hopens.writable
      rw [locate_eq_ok_iff.mpr hopens.leads]
      simp [hwrite]
    · obtain ⟨access, hfolder, hwrite⟩ := hopens.writable
      rw [locate_eq_ok_iff.mpr hopens.leads]
      simp [access_eq_ok_iff.mpr hfolder, hwrite]

/-- **A write succeeds where its path can be written to**, whatever it writes. -/
theorem exists_write_iff :
    (∃ after, directory.write path text = .ok after) ↔ ∃ target, directory.Opens path target := by
  constructor
  · rintro ⟨after, h⟩
    obtain ⟨number, hopens, -⟩ | ⟨name, hopens, -⟩ := write_eq_ok_iff.mp h
    · exact ⟨_, hopens⟩
    · exact ⟨_, hopens⟩
  · rintro ⟨target, hopens⟩
    cases target with
    | folder name => exact hopens.writable.elim
    | file number => exact ⟨_, write_eq_ok_iff.mpr (.inl ⟨number, hopens, rfl⟩)⟩
    | vacant name => exact ⟨_, write_eq_ok_iff.mpr (.inr ⟨name, hopens, rfl⟩)⟩

/-! ### The frame of a write -/

/-- **Only one file is new.** In `after` the file of this number has this content. Either the
target was that file, and it has kept its names and what may be done with it, or the target was
a free name, which now stands for that file, and no name had stood for it. Every other file and
every other name is as it was in `before`. -/
structure Overwritten (before : Directory) (target : Target) (number : Nat) (content : ByteArray)
    (after : Directory) : Prop where
  content_eq : (after.files number).content = content
  file : ∀ known, target = .file known →
    known = number ∧ (after.files number).access = (before.files number).access
  vacant : ∀ name, target = .vacant name →
    before.lookup name = none ∧ after.lookup name = some (.file number) ∧
      ∀ other, before.lookup other ≠ some (.file number)
  files_other : ∀ other, other ≠ number → after.files other = before.files other
  lookup_other : ∀ other, target ≠ .vacant other → after.lookup other = before.lookup other
  here_eq : after.here = before.here

/-- The number of a new file is above all numbers that a name stands for. -/
theorem lt_fresh (h : directory.lookup name = some (.file number)) : number < directory.fresh := by
  unfold lookup at h
  unfold fresh
  generalize directory.entries = entries at h ⊢
  induction entries with
  | nil => cases h
  | cons known entries ih =>
    obtain ⟨known, entry⟩ := known
    rw [List.lookup_cons] at h
    rw [List.foldr_cons]
    by_cases hname : name = known
    · subst hname
      simp only [BEq.rfl] at h
      cases h
      exact Nat.lt_of_lt_of_le (Nat.lt_succ_self number) (Nat.le_max_left _ _)
    · rw [beq_eq_false_iff_ne.mpr hname] at h
      have hlt := ih h
      cases entry with
      | file other => exact Nat.lt_of_lt_of_le hlt (Nat.le_max_right _ _)
      | folder | link => exact hlt

theorem lookup_create (h : directory.lookup name = none) (other : FileName) :
    (directory.create name content).lookup other
      = if other = name then some (.file directory.fresh) else directory.lookup other := by
  unfold lookup create at *
  rw [List.lookup_append]
  by_cases hother : other = name
  · subst hother
    simp [h]
  · simp [hother, List.lookup_cons, beq_eq_false_iff_ne.mpr hother]

theorem Moves.lookup_eq_none
    (h : directory.Moves purpose trailing folder component last (.stop (.vacant name))) :
    directory.lookup name = none := by
  cases h with
  | vacant _ _ hentry => exact hentry

/-- A name that a path leads to as free is free. -/
theorem Reaches.lookup_eq_none
    (h : directory.Reaches purpose links trailing folder components (.vacant name)) :
    directory.lookup name = none := by
  generalize htarget : Target.vacant name = target at h
  induction h with
  | done => cases htarget
  | enter _ _ _ ih | link _ _ _ ih => exact ih htarget
  | stop _ hmove =>
    subst htarget
    exact hmove.lookup_eq_none

theorem overwritten_overwrite (directory : Directory) (number : Nat) (content : ByteArray) :
    directory.Overwritten (.file number) number content (directory.overwrite number content) where
  content_eq := by simp [overwrite]
  file known hknown := by
    cases hknown
    simp [overwrite]
  vacant := nofun
  files_other other hother := by simp [overwrite, hother]
  lookup_other _ _ := rfl
  here_eq := rfl

theorem overwritten_create (content : ByteArray) (h : directory.lookup name = none) :
    directory.Overwritten (.vacant name) directory.fresh content
      (directory.create name content) where
  content_eq := by simp [create]
  file := nofun
  vacant known hknown := by
    cases hknown
    refine ⟨h, by rw [lookup_create h, if_pos rfl], ?_⟩
    intro other hother
    exact Nat.lt_irrefl _ (lt_fresh hother)
  files_other other hother := by simp [create, hother]
  lookup_other other hother := by
    have hne : other ≠ name := by
      rintro rfl
      exact hother rfl
    rw [lookup_create h, if_neg hne]
  here_eq := rfl

/-- **A write changes one file only**, the one that its path leads to. -/
theorem overwritten_of_write (h : directory.write path text = .ok after) :
    ∃ target number, directory.Opens path target ∧
      directory.Overwritten target number text.toUTF8 after := by
  obtain ⟨number, hopens, rfl⟩ | ⟨name, hopens, rfl⟩ := write_eq_ok_iff.mp h
  · exact ⟨_, number, hopens, overwritten_overwrite directory number _⟩
  · have hfree : directory.lookup name = none := hopens.leads.reaches.lookup_eq_none
    exact ⟨_, directory.fresh, hopens, overwritten_create _ hfree⟩

/-! ### The path of a write afterwards -/

namespace Overwritten

/-- A write takes no entry away. -/
theorem lookup_kept (h : before.Overwritten target number content after)
    (hentry : before.lookup name = some entry) : after.lookup name = some entry := by
  have hne : target ≠ .vacant name := by
    intro htarget
    rw [(h.vacant name htarget).1] at hentry
    cases hentry
  rw [h.lookup_other name hne, hentry]

theorem searchable (h : before.Overwritten target number content after)
    (hsearch : before.Searchable folder) : after.Searchable folder := by
  obtain ⟨access, hentry, hopen⟩ := hsearch
  exact ⟨access, h.lookup_kept hentry, hopen⟩

end Overwritten

/-- What may be followed for writing may be followed for reading. -/
theorem Named.of_write (h : Named .write trailing component last) (purpose : Purpose) :
    Named purpose trailing component last where
  ne_here := h.ne_here
  ne_up := h.ne_up
  open_end := by
    rintro ⟨hlast, htrailing, -⟩
    exact h.open_end ⟨hlast, htrailing, rfl⟩
  length_le := h.length_le

/-- The move once the target has been written: one that stopped at the target stops at the
file. -/
theorem Moves.overwritten (h : before.Moves .write trailing folder component last move)
    (hover : before.Overwritten target number content after)
    (hstop : ∀ found, move = .stop found → found = target) :
    after.Moves purpose trailing folder component last
      (match move with
        | .stop _ => .stop (.file number)
        | move => move) := by
  cases h with
  | here => exact .here
  | up => exact .up
  | folder hnamed hentry => exact .folder (hnamed.of_write _) (hover.lookup_kept hentry)
  | link hnamed hentry hpath => exact .link (hnamed.of_write _) (hover.lookup_kept hentry) hpath
  | file hnamed htrailing hentry =>
    obtain ⟨rfl, -⟩ := hover.file _ (hstop _ rfl).symm
    exact .file (hnamed.of_write _) htrailing (hover.lookup_kept hentry)
  | vacant hnamed htrailing hentry =>
    -- the name is not free any more
    obtain ⟨-, hnew, -⟩ := hover.vacant _ (hstop _ rfl).symm
    exact .file (hnamed.of_write _) htrailing hnew

/-- **The way to a file that was written.** Every step of it can be taken again, and the last
one leads to the file. -/
theorem Reaches.overwritten
    (h : before.Reaches .write links trailing folder components target)
    (hover : before.Overwritten target number content after)
    (hfile : ∀ name, target ≠ .folder name) :
    after.Reaches purpose links trailing folder components (.file number) := by
  induction h with
  | done => exact absurd rfl (hfile _)
  | enter hsearch hmove _ ih =>
    exact .enter (hover.searchable hsearch) (hmove.overwritten hover nofun) (ih hover hfile)
  | link hsearch hmove _ ih =>
    exact .link (hover.searchable hsearch) (hmove.overwritten hover nofun) (ih hover hfile)
  | stop hsearch hmove =>
    apply Reaches.stop (hover.searchable hsearch)
    apply hmove.overwritten hover
    rintro _ ⟨⟩
    rfl

/-- **The path of a write leads to what was written**, for reading and for writing alike. -/
theorem Opens.overwritten (h : before.Opens path target)
    (hover : before.Overwritten target number content after) :
    after.Leads purpose path (.file number) where
  ne_empty := h.leads.ne_empty
  length_lt := h.leads.length_lt
  reaches := by
    rw [hover.here_eq]
    apply h.leads.reaches.overwritten hover
    rintro name rfl
    exact h.writable

end Directory

end ArithTree
