import IntLang.Files.Disk
import IntLang.Proofs.Answers
import IntLang.Proofs.Text.Pieces
import Mathlib.Data.List.Basic

/-!
# Writing files

A path is followed through directories, and writing a file makes no directory and takes none away.
So whatever is written, each path goes on leading to the same place (`SameDirectories.target`), and
there it finds what was written there last (`read_write`). A disk on which nothing but some files
has been written, however often, is `Rewritten`.
-/

namespace IntLang.Disk

/-! ### Places -/

/-- The first of several things at one place, when all of them are replaced. -/
theorem lookup_map_replace (nodes : List (Place × Node)) (place : Place) (node : Node)
    (other : Place) :
    (nodes.map fun item => if item.1 = place then (place, node) else item).lookup other
      = if other = place then (nodes.lookup other).map fun _ => node else nodes.lookup other := by
  induction nodes with
  | nil => simp
  | cons item nodes ih =>
      obtain ⟨key, old⟩ := item
      by_cases hkey : key = place
      · by_cases hother : other = place
        · simp [hkey, hother]
        · have hne : (other == place) = false := by simpa using hother
          simp [List.lookup_cons, hkey, hother, hne, ih]
      · by_cases hother : other = key
        · simp [hkey, hother]
        · have hne : (other == key) = false := by simpa using hother
          simp [List.lookup_cons, hkey, hne, ih]

/-- What is at a place after something was put at one. -/
theorem node?_put (d : Disk) {place : Place} (h : place ≠ []) (node : Node) (other : Place) :
    (d.put place node).node? other = if other = place then some node else d.node? other := by
  by_cases hroot : other = []
  · simp [node?, hroot, Ne.symm h]
  · have hempty : other.isEmpty = false := by simpa using hroot
    simp only [node?, hempty, Bool.false_eq_true, if_false]
    rw [put]
    split
    · next hany =>
        have hsome : (d.nodes.lookup place).isSome = true := by
          rw [List.lookup_isSome_iff]
          simpa using hany
        rw [lookup_map_replace]
        split
        · next he =>
            subst he
            obtain ⟨old, hold⟩ := Option.isSome_iff_exists.1 hsome
            rw [hold]
            rfl
        · rfl
    · next hany =>
        have hnone : d.nodes.lookup place = none := by
          rw [List.lookup_eq_none_iff]
          intro item hitem
          simp only [List.any_eq_true, decide_eq_true_eq, not_exists, not_and] at hany
          simpa using Ne.symm (hany item hitem)
        rw [List.lookup_append]
        split
        · next he => simp [he, hnone]
        · next he =>
            have hne : (other == place) = false := by simpa using he
            simp [List.lookup_cons, hne]

@[simp] theorem home_put (d : Disk) (place : Place) (node : Node) :
    (d.put place node).home = d.home := by
  rw [put]
  split <;> rfl

/-! ### Directories -/

/-- Two disks with the same working directory and the same directories, whatever else they hold. -/
structure SameDirectories (d e : Disk) : Prop where
  /-- The working directory is the same. -/
  home : e.home = d.home
  /-- The same places are directories. -/
  directory : ∀ place, e.node? place = some .directory ↔ d.node? place = some .directory

namespace SameDirectories

variable {d e f : Disk}

theorem refl (d : Disk) : SameDirectories d d := ⟨rfl, fun _ => Iff.rfl⟩

theorem trans (h : SameDirectories d e) (h' : SameDirectories e f) : SameDirectories d f :=
  ⟨h'.home.trans h.home, fun place => (h'.directory place).trans (h.directory place)⟩

/-- A file that is put where no directory is leaves the directories as they are. -/
theorem put {place : Place} (hplace : place ≠ []) (h : d.node? place ≠ some .directory)
    (content : Text) : SameDirectories d (d.put place (.file content)) := by
  refine ⟨home_put _ _ _, fun other => ?_⟩
  rw [node?_put _ hplace]
  split
  · next he => simp [he, h]
  · rfl

end SameDirectories

/-- Names are followed only from a directory on. -/
theorem follow_cons_eq_ok_iff {d : Disk} {start place : Place} {name : Text} {names : List Text} :
    d.follow start (name :: names) = .ok place ↔ d.node? start = some .directory ∧
      (if name = "" || name = "." then d.follow start names
        else if name = ".." then d.follow start.dropLast names
        else if longestName < name.size then .error .tooLong
        else d.follow (start ++ [name]) names) = .ok place := by
  rw [follow]
  split
  · next h => simp [h]
  · next h => simp [h]
  · next h => simp [h]

/-- The same names lead to the same place. -/
theorem SameDirectories.follow {d e : Disk} (h : SameDirectories d e) {start place : Place}
    {names : List Text} : e.follow start names = .ok place ↔ d.follow start names = .ok place := by
  induction names generalizing start with
  | nil => simp [Disk.follow]
  | cons name names ih =>
      rw [follow_cons_eq_ok_iff, follow_cons_eq_ok_iff, h.directory]
      refine and_congr_right fun _ => ?_
      split
      · exact ih
      · split
        · exact ih
        · split
          · rfl
          · exact ih

/-- Names may be followed in two parts. -/
theorem follow_append (d : Disk) (start : Place) (first second : List Text) :
    d.follow start (first ++ second) =
      d.follow start first >>= fun place => d.follow place second := by
  induction first generalizing start with
  | nil => rfl
  | cons name names ih =>
      rw [List.cons_append, follow, follow]
      split
      · rfl
      · rfl
      · split
        · exact ih _
        · split
          · exact ih _
          · split
            · rfl
            · exact ih _

/-! ### Paths -/

/-- The same paths have the same names. -/
theorem SameDirectories.names {d e : Disk} (h : SameDirectories d e) (path : Text) :
    e.names path = d.names path := by
  rw [Disk.names, Disk.names, h.home]

/-- The same paths have the same absolute form. -/
theorem SameDirectories.absolute {d e : Disk} (h : SameDirectories d e) (path : Text) :
    e.absolute path = d.absolute path := by
  rw [Disk.absolute, Disk.absolute, h.home]

/-- What a path leads to: where its names lead. -/
theorem find_eq_ok_iff {d : Disk} {path : Text} {place : Place} {node : Node} :
    d.find path = .ok (place, node) ↔ ∃ names, d.names path = .ok names ∧
      d.follow [] names = .ok place ∧ d.node? place = some node := by
  rw [find, bind_eq_ok_iff]
  constructor
  · rintro ⟨names, hnames, h⟩
    obtain ⟨at', hfollow, h⟩ := bind_eq_ok_iff.1 h
    refine ⟨names, hnames, ?_⟩
    split at h
    · next hnode =>
        cases h
        exact ⟨hfollow, hnode⟩
    · cases h
  · rintro ⟨names, hnames, hfollow, hnode⟩
    refine ⟨names, hnames, bind_eq_ok_iff.2 ⟨place, hfollow, ?_⟩⟩
    rw [hnode]

/-- The same paths lead to directories. -/
theorem SameDirectories.find {d e : Disk} (h : SameDirectories d e) {path : Text} {place : Place} :
    e.find path = .ok (place, .directory) ↔ d.find path = .ok (place, .directory) := by
  simp only [find_eq_ok_iff, h.names, h.follow, h.directory]

/-- A name that a file can be made under. -/
structure IsFileName (name : Text) : Prop where
  ne_empty : name ≠ ""
  ne_dot : name ≠ "."
  ne_dots : name ≠ ".."
  size_le : name.size ≤ longestName

/-- Names with none but an empty one at the end are not trimmed. -/
theorem trimNames_concat {name : Text} (h : name ≠ "") (init : List Text) :
    trimNames (init ++ [name]) = (init ++ [name], false) := by
  have hempty : name.isEmpty = false := Text.isEmpty_eq_false_iff.2 h
  simp [trimNames, hempty]

/-- An empty name at the end is trimmed. -/
theorem trimNames_concat_empty {name : Text} (h : name = "") (init : List Text) :
    (trimNames (init ++ [name])).2 = true := by
  have hempty : name.isEmpty = true := Text.isEmpty_eq_true_iff.2 h
  have hle : (init.reverse.dropWhile (·.isEmpty)).length ≤ init.length := by
    simpa using (List.dropWhile_suffix (l := init.reverse) (·.isEmpty)).length_le
  simpa [trimNames, hempty] using Nat.lt_succ_of_le hle

/-- Where a file with a path would be made: under the last name, in the directory that the names
before it lead to, and where no directory is. -/
theorem target_eq_ok_iff {d : Disk} {path : Text} {place : Place} :
    d.target path = .ok place ↔ ∃ init name dir,
      d.names path = .ok (init ++ [name]) ∧ IsFileName name ∧ d.follow [] init = .ok dir ∧
      d.node? dir = some .directory ∧ place = dir ++ [name] ∧
      d.node? place ≠ some .directory := by
  rw [target, bind_eq_ok_iff]
  constructor
  · rintro ⟨names, hnames, h⟩
    obtain rfl | ⟨init, name, rfl⟩ := List.eq_nil_or_concat' names
    · cases h
    by_cases hempty : name = ""
    · have htrim := trimNames_concat_empty hempty init
      simp only [htrim, Bool.true_or, if_true] at h
      split at h
      · cases h
      · obtain ⟨dir, -, h⟩ := bind_eq_ok_iff.1 h
        split at h <;> cases h
    · simp only [trimNames_concat hempty, List.getLast?_concat, List.dropLast_concat] at h
      obtain ⟨dir, hfollow, h⟩ := bind_eq_ok_iff.1 h
      refine ⟨init, name, dir, hnames, ?_⟩
      split at h
      · cases h
      · cases h
      next hdir =>
      simp only [Bool.false_or] at h
      split at h
      · cases h
      next hdots =>
      split at h
      · cases h
      next hsize =>
      split at h
      · cases h
      next hnode =>
      cases h
      simp only [Bool.or_eq_true, decide_eq_true_eq, not_or] at hdots
      exact ⟨⟨hempty, hdots.1, hdots.2, Nat.not_lt.1 hsize⟩, hfollow, hdir, rfl, hnode⟩
  · rintro ⟨init, name, dir, hnames, hname, hfollow, hdir, rfl, hnode⟩
    refine ⟨init ++ [name], hnames, ?_⟩
    simp only [trimNames_concat hname.ne_empty, List.getLast?_concat, List.dropLast_concat]
    refine bind_eq_ok_iff.2 ⟨dir, hfollow, ?_⟩
    simp only [hdir, hname.ne_dot, hname.ne_dots, Nat.not_lt.2 hname.size_le, decide_false,
      Bool.false_or, Bool.false_eq_true, if_false]

/-- The same paths lead to the same places for files. -/
theorem SameDirectories.target {d e : Disk} (h : SameDirectories d e) {path : Text}
    {place : Place} (htarget : d.target path = .ok place) : e.target path = .ok place := by
  obtain ⟨init, name, dir, hnames, hname, hfollow, hdir, rfl, hnode⟩ :=
    target_eq_ok_iff.1 htarget
  exact target_eq_ok_iff.2 ⟨init, name, dir, (h.names path).trans hnames, hname,
    h.follow.2 hfollow, (h.directory dir).2 hdir, rfl,
    fun hnode' => hnode ((h.directory _).1 hnode')⟩

section Target

variable {d : Disk} {path : Text} {place : Place}

theorem ne_nil_of_target (h : d.target path = .ok place) : place ≠ [] := by
  obtain ⟨_, _, _, _, _, _, _, rfl, _⟩ := target_eq_ok_iff.1 h
  simp

theorem node?_ne_directory_of_target (h : d.target path = .ok place) :
    d.node? place ≠ some .directory := by
  obtain ⟨_, _, _, _, _, _, _, _, hnode⟩ := target_eq_ok_iff.1 h
  exact hnode

/-- A path that a file can be made under leads to what is at the place of the file. -/
theorem find_of_target (h : d.target path = .ok place) :
    d.find path = match d.node? place with
      | some node => .ok (place, node)
      | none => .error .notOnDisk := by
  obtain ⟨init, name, dir, hnames, hname, hfollow, hdir, rfl, -⟩ := target_eq_ok_iff.1 h
  have hlast : d.follow dir [name] = .ok (dir ++ [name]) := by
    simp [follow, hdir, hname.ne_empty, hname.ne_dot, hname.ne_dots, Nat.not_lt.2 hname.size_le]
  have hall : d.follow [] (init ++ [name]) = .ok (dir ++ [name]) := by
    rw [follow_append, hfollow]
    exact hlast
  rw [find, hnames]
  change (d.follow [] (init ++ [name]) >>= _) = _
  rw [hall]
  rfl

/-- What is read under such a path is the file at that place. -/
theorem read_of_target (h : d.target path = .ok place) :
    d.read path = match d.node? place with
      | some (.file content) => .ok content
      | _ => .error .notOnDisk := by
  have hnode := node?_ne_directory_of_target h
  rw [read, find_of_target h]
  cases hplace : d.node? place with
  | none => rfl
  | some node =>
      cases node with
      | file content => rfl
      | directory => exact absurd hplace hnode

end Target

/-! ### Writing -/

/-- Writing a file puts it at the place that its path leads to. -/
theorem write_eq_ok_iff {d e : Disk} {path content : Text} :
    d.write path content = .ok e ↔
      ∃ place, d.target path = .ok place ∧ e = d.put place (.file content) := by
  rw [write, bind_eq_ok_iff]
  constructor
  · rintro ⟨place, htarget, h⟩
    cases h
    exact ⟨place, htarget, rfl⟩
  · rintro ⟨place, htarget, rfl⟩
    exact ⟨place, htarget, rfl⟩

theorem sameDirectories_put {d : Disk} {path : Text} {place : Place}
    (h : d.target path = .ok place) (content : Text) :
    SameDirectories d (d.put place (.file content)) :=
  .put (ne_nil_of_target h) (node?_ne_directory_of_target h) content

/-- What was written is what is read. -/
theorem read_write {d e : Disk} {path content : Text} (h : d.write path content = .ok e) :
    e.read path = .ok content := by
  obtain ⟨place, htarget, rfl⟩ := write_eq_ok_iff.1 h
  rw [read_of_target ((sameDirectories_put htarget content).target htarget),
    node?_put d (ne_nil_of_target htarget), if_pos rfl]

/-! ### Writing again and again -/

/-- A disk that has come from another by putting files at some places. -/
inductive Rewritten (d : Disk) (places : List Place) : Disk → Prop
  | same : Rewritten d places d
  | put {e : Disk} {place : Place} (content : Text) :
      Rewritten d places e → place ∈ places → Rewritten d places (e.put place (.file content))

/-- Files that are put where no directories are leave the directories as they are. -/
theorem Rewritten.sameDirectories {d e : Disk} {places : List Place} (h : d.Rewritten places e)
    (hplaces : ∀ place ∈ places, place ≠ [] ∧ d.node? place ≠ some .directory) :
    SameDirectories d e := by
  induction h with
  | same => exact .refl d
  | put content _ hplace ih =>
      obtain ⟨hne, hnode⟩ := hplaces _ hplace
      exact ih.trans (.put hne (fun hnode' => hnode ((ih.directory _).1 hnode')) content)

/-- Files that are put at some of the places later are put there all the same. -/
theorem Rewritten.trans {d e f : Disk} {places others : List Place} (h : d.Rewritten places e)
    (h' : e.Rewritten others f) (hsub : ∀ place ∈ others, place ∈ places) :
    d.Rewritten places f := by
  induction h' with
  | same => exact h
  | put content _ hplace ih => exact ih.put content (hsub _ hplace)

/-- Elsewhere everything is as it was. -/
theorem Rewritten.node?_eq {d e : Disk} {places : List Place} (h : d.Rewritten places e)
    (hplaces : ∀ place ∈ places, place ≠ []) {place : Place} (hplace : place ∉ places) :
    e.node? place = d.node? place := by
  induction h with
  | same => rfl
  | @put _ other _ _ hother ih =>
      have hne : place ≠ other := fun he => hplace (he ▸ hother)
      rw [node?_put _ (hplaces _ hother), if_neg hne, ih]

end IntLang.Disk
