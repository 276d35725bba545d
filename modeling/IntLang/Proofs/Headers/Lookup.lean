import IntLang.Headers
import IntLang.Proofs.Files.Folder

/-!
# Headers in folders

A header is looked up in a list of sources. If they open to folders (`FileSource.Opens`), the
folders alone decide the answer (`resolve_of_opens`): the first one that has the file does, and in
it the file that is taken for the name (`Finds`). Nothing but files in the roots is ever read, and
directories count for nothing.

The search through the sources is the induction (`search_eq`). Everything that is said about the
text of a header is read off the two ways it can end.
-/

namespace IntLang.Headers

/-! ### Names and files -/

/-- The names that are refused: those that are no name in a directory, and those with a slash of
either kind. -/
def IsRefused (name : Text) : Prop :=
  name = "" ∨ name = "." ∨ name = ".." ∨ 0x2F ∈ name.bytes ∨ 0x5C ∈ name.bytes

theorem isHeaderName_eq_false_iff {name : Text} : isHeaderName name = false ↔ IsRefused name := by
  simp only [isHeaderName, IsRefused, Bool.not_eq_false', Bool.or_eq_true, decide_eq_true_eq,
    Text.hasByte, List.contains_iff_mem, or_assoc]

theorem isHeaderName_iff {name : Text} : isHeaderName name = true ↔ ¬ IsRefused name := by
  rw [← isHeaderName_eq_false_iff, Bool.not_eq_false]

/-- The file of a header is a name without a backslash. -/
theorem isElement_append_extension {name : Text} (h : ¬ IsRefused name) :
    Path.IsElement (name ++ extension) ∧ 0x5C ∉ (name ++ extension).bytes := by
  have hsize : 4 ≤ (name ++ extension).bytes.length := by
    rw [Text.bytes_append, List.length_append]
    exact Nat.le_add_left 4 _
  have hne {t : Text} (ht : t.bytes.length < 4) : name ++ extension ≠ t := by
    rintro rfl
    omega
  have hfree {b : UInt8} (hb : b ∉ name.bytes) (hext : b ∉ extension.bytes) :
      b ∉ (name ++ extension).bytes := by
    rw [Text.bytes_append, List.mem_append]
    exact not_or.2 ⟨hb, hext⟩
  have hslash : 0x2F ∉ name.bytes := fun hb => h (.inr (.inr (.inr (.inl hb))))
  have hback : 0x5C ∉ name.bytes := fun hb => h (.inr (.inr (.inr (.inr hb))))
  exact ⟨⟨hne (by decide), hne (by decide), hne (by decide), hfree hslash (by decide)⟩,
    hfree hback (by decide)⟩

/-! ### The first folder that has a file -/

/-- What folders, one after the other, have for a name: the first that has a file with that name
decides, and the others are not asked. -/
inductive Finds (file content : Text) : List Folder → Prop where
  | here {folder : Folder} {others : List Folder} {spelled : Text} :
    folder.Takes file spelled content → Finds file content (folder :: others)
  | later {folder : Folder} {others : List Folder} :
    ¬ folder.Has file → Finds file content others → Finds file content (folder :: others)

variable {sources : List (FileSource Id)} {folders : List Folder} {file content content' : Text}

theorem Finds.exists_takes (h : Finds file content folders) :
    ∃ folder ∈ folders, ∃ spelled, folder.Takes file spelled content := by
  induction h with
  | here htakes => exact ⟨_, List.mem_cons_self, _, htakes⟩
  | later _ _ ih =>
    obtain ⟨folder, hmem, htakes⟩ := ih
    exact ⟨folder, List.mem_cons_of_mem _ hmem, htakes⟩

theorem Finds.has (h : Finds file content folders) : ∃ folder ∈ folders, folder.Has file := by
  obtain ⟨folder, hmem, spelled, htakes⟩ := h.exists_takes
  exact ⟨folder, hmem, htakes.has⟩

/-- One content is found. -/
theorem Finds.unique (hopens : List.Forall₂ FileSource.Opens sources folders)
    (h : Finds file content folders) (h' : Finds file content' folders) : content = content' := by
  induction hopens with
  | nil => cases h
  | cons hopen _ ih =>
    cases h with
    | here htakes =>
      cases h' with
      | here htakes' => exact htakes.unique hopen.content_eq htakes'
      | later hnone _ => exact absurd htakes.has hnone
    | later hnone hlater =>
      cases h' with
      | here htakes' => exact absurd htakes'.has hnone
      | later _ hlater' => exact ih hlater hlater'

/-- The sources are searched as the folders say. -/
theorem search_eq (hopens : List.Forall₂ FileSource.Opens sources folders)
    (hfile : Path.IsElement file) (hback : 0x5C ∉ file.bytes) :
    (∃ content, Finds file content folders ∧ (search file sources).run = .ok (some content)) ∨
    (¬ ∃ folder ∈ folders, folder.Has file) ∧ (search file sources).run = .ok none := by
  induction hopens with
  | nil => exact .inr ⟨by simp, rfl⟩
  | @cons source folder _ _ hopen _ ih =>
    simp only [search, Id.run_bind]
    rcases hopen.readAnyCase hfile hback with ⟨spelled, content, htakes, hread⟩ | ⟨hnone, hread⟩
    · simp only [hread]
      exact .inl ⟨content, .here htakes, rfl⟩
    simp only [hread, LookupError.isAbsence, if_true]
    rcases ih with ⟨content, hfinds, hsearch⟩ | ⟨hothers, hsearch⟩
    · exact .inl ⟨content, .later hnone hfinds, hsearch⟩
    · refine .inr ⟨?_, hsearch⟩
      rintro ⟨folder', hmem, hhas⟩
      rcases List.mem_cons.1 hmem with rfl | hmem
      · exact hnone hhas
      · exact hothers ⟨folder', hmem, hhas⟩

/-! ### The text of a header -/

variable {name : Text}

theorem resolve_of_isRefused (h : IsRefused name) :
    (resolve sources name).run = .error (.badName name) := by
  simp only [resolve, isHeaderName_eq_false_iff.2 h, Bool.not_false, if_true]
  rfl

/-- A name that is refused has no text. -/
theorem not_isRefused_of_resolve (h : (resolve sources name).run = .ok content) :
    ¬ IsRefused name := by
  intro hname
  cases (resolve_of_isRefused hname).symm.trans h

/-- A header is resolved as the folders say. -/
theorem resolve_eq (hopens : List.Forall₂ FileSource.Opens sources folders)
    (hname : ¬ IsRefused name) :
    (∃ content, Finds (name ++ extension) content folders ∧
      (resolve sources name).run = .ok content) ∨
    (¬ ∃ folder ∈ folders, folder.Has (name ++ extension)) ∧
      (resolve sources name).run =
        .error (.missing (name ++ extension) (available sources).run) := by
  obtain ⟨hfile, hback⟩ := isElement_append_extension hname
  simp only [resolve, isHeaderName_iff.2 hname, Bool.not_true, Bool.false_eq_true, if_false,
    Id.run_bind]
  rcases search_eq hopens hfile hback with ⟨content, hfinds, hsearch⟩ | ⟨hnone, hsearch⟩
  · simp only [hsearch]
    exact .inl ⟨content, hfinds, rfl⟩
  · simp only [hsearch]
    exact .inr ⟨hnone, rfl⟩

theorem resolve_eq_ok_iff (hopens : List.Forall₂ FileSource.Opens sources folders)
    (hname : ¬ IsRefused name) :
    (resolve sources name).run = .ok content ↔ Finds (name ++ extension) content folders := by
  rcases resolve_eq hopens hname with ⟨found, hfinds, hrun⟩ | ⟨hnone, hrun⟩
  · rw [hrun, Except.ok.injEq]
    exact ⟨fun heq => heq ▸ hfinds, hfinds.unique hopens⟩
  · simp only [hrun, reduceCtorEq, false_iff]
    exact fun hfinds => hnone hfinds.has

/-- A text is found exactly if a folder has the file. -/
theorem exists_resolve_iff (hopens : List.Forall₂ FileSource.Opens sources folders)
    (hname : ¬ IsRefused name) :
    (∃ content, (resolve sources name).run = .ok content) ↔
      ∃ folder ∈ folders, folder.Has (name ++ extension) := by
  rcases resolve_eq hopens hname with ⟨found, hfinds, hrun⟩ | ⟨hnone, hrun⟩
  · exact iff_of_true ⟨found, hrun⟩ hfinds.has
  · refine iff_of_false ?_ hnone
    rintro ⟨content, hok⟩
    cases hrun.symm.trans hok

/-- The file is reported missing exactly if no folder has it. -/
theorem resolve_isAbsence_iff (hopens : List.Forall₂ FileSource.Opens sources folders)
    (hname : ¬ IsRefused name) :
    (∃ e, (resolve sources name).run = .error e ∧ e.isAbsence = true) ↔
      ¬ ∃ folder ∈ folders, folder.Has (name ++ extension) := by
  rcases resolve_eq hopens hname with ⟨found, hfinds, hrun⟩ | ⟨hnone, hrun⟩
  · refine iff_of_false ?_ (not_not.2 hfinds.has)
    rintro ⟨e, herror, -⟩
    cases hrun.symm.trans herror
  · exact iff_of_true ⟨_, hrun, rfl⟩ hnone

/-- **A header is what the first folder has for it.** Names that could lead elsewhere are refused.
For any other name the first folder with such a file decides; the file that is spelled exactly so
comes first in it, and then the order of the folder. There is no other failure than that no folder
has the file, and what is read has a plain name in the root of a source. -/
theorem resolve_of_opens (hopens : List.Forall₂ FileSource.Opens sources folders) (name : Text) :
    (IsRefused name → (resolve sources name).run = .error (.badName name)) ∧
    (¬ IsRefused name →
      (∀ content, (resolve sources name).run = .ok content ↔
        Finds (name ++ extension) content folders) ∧
      ((∃ content, (resolve sources name).run = .ok content) ↔
        ∃ folder ∈ folders, folder.Has (name ++ extension)) ∧
      ((∃ e, (resolve sources name).run = .error e ∧ e.isAbsence = true) ↔
        ¬ ∃ folder ∈ folders, folder.Has (name ++ extension))) ∧
    ∀ content, (resolve sources name).run = .ok content →
      ∃ folder ∈ folders, ∃ spelled,
        Path.IsElement spelled ∧ (spelled, .file content) ∈ folder := by
  refine ⟨resolve_of_isRefused, fun hname => ⟨fun content => resolve_eq_ok_iff hopens hname,
    exists_resolve_iff hopens hname, resolve_isAbsence_iff hopens hname⟩, fun content hok => ?_⟩
  have hname := not_isRefused_of_resolve hok
  obtain ⟨folder, hmem, spelled, htakes⟩ := ((resolve_eq_ok_iff hopens hname).1 hok).exists_takes
  have hspelled := Path.isElement_of_equalFold (isElement_append_extension hname).1 htakes.fits
  exact ⟨folder, hmem, spelled, hspelled, Folder.mem_files_iff.1 htakes.mem⟩

/-- A disk where a directory has the name of a header, beside two files that have it up to case. -/
def crowdedDisk : Disk where
  nodes := [(["std"], .directory), (["std", "IO.HPP"], .file "loud"),
    (["std", "Io.hpp"], .file "mixed"), (["std", "io.hpp"], .directory),
    (["std", "io.hpp", "io.hpp"], .file "deep")]

/-- What is in that directory. -/
def crowdedFolder : Folder :=
  [("IO.HPP", .file "loud"), ("Io.hpp", .file "mixed"), ("io.hpp", .directory)]

theorem opens_crowdedDisk : (crowdedDisk.readOnly.directory "std").Opens crowdedFolder where
  coherent := Disk.coherent_directory _ _
  list := by
    have hsorted : crowdedFolder.entries.Pairwise fun a b => Text.le a.name b.name = true := by
      decide
    exact congrArg Except.ok (List.mergeSort_of_pairwise hsorted)
  read h := by rcases List.mem_pair.1 h with h | h <;> cases h <;> rfl

theorem opens_standard : (FileSource.builtIn standard).Opens standard.nodes :=
  Library.IsFlat.opens ⟨by decide, by decide⟩ _

/-- The directory hides neither of the files beside it, the first of them is read, and the header
of the same name in a later source is not. -/
theorem resolve_of_opens_crowdedDisk :
    List.Forall₂ FileSource.Opens
      [crowdedDisk.readOnly.directory "std", FileSource.builtIn standard]
      [crowdedFolder, standard.nodes] ∧
    ¬ IsRefused "io" ∧
    (resolve [crowdedDisk.readOnly.directory "std", FileSource.builtIn standard] "io").run =
      .ok "loud" := by
  have hopens := List.Forall₂.cons opens_crowdedDisk (.cons opens_standard .nil)
  have hkept : ¬ IsRefused "io" := isHeaderName_iff.1 (by decide)
  have hexact : ¬ ∃ other, ("io" ++ extension, other) ∈ crowdedFolder.files := by
    rintro ⟨other, hmem⟩
    rcases List.mem_pair.1 hmem with h | h <;> exact absurd (Prod.mk.inj h).1 (by decide)
  have htakes : crowdedFolder.Takes ("io" ++ extension) "IO.HPP" "loud" :=
    Folder.takes_of_find? hexact (by decide)
  refine ⟨hopens, hkept, ?_⟩
  exact (((resolve_of_opens hopens "io").2.1 hkept).1 "loud").2 (.here htakes)

end IntLang.Headers
