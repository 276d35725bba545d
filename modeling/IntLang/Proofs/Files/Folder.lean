import IntLang.Proofs.Files.Absolute
import IntLang.Proofs.Files.Writing
import IntLang.Proofs.Text.Folding
import IntLang.Proofs.World.Looking
import Mathlib.Data.List.TakeWhile

/-!
# Files in the root of a source

A `Folder` is what a directory holds: names in order, and what they lead to. A source of files
*opens* to a folder if that is what it lists in its root and the files can be read
(`FileSource.Opens`). The three answers of a source have to hang together for that
(`FileSource.Coherent`). They do so in libraries of files and in directories of a disk
(`coherent_sourceWith`, `coherent_directory`), and also where names that differ in case lead to one
file (`FileSource.opens_ignoringCase`).

A file is looked up by its name, up to case. What is read is decided by the folder alone: the file
that is spelled exactly so, or else the first that agrees up to case (`Folder.Takes`), and nothing
if there is none (`FileSource.Opens.readAnyCase`). Whatever else a source may give access to is
never asked for.
-/

namespace IntLang

/-! ### Names as paths -/

namespace Path

variable {name : Text}

theorem split_of_notMem (h : slash ∉ name.bytes) : split name = (.empty, name) := by
  have hall : name.bytes.reverse.takeWhile (· != slash) = name.bytes.reverse := by
    rw [List.takeWhile_eq_self_iff]
    intro b hb
    exact bne_iff_ne.2 fun he => h (he ▸ List.mem_reverse.1 hb)
  simp only [split, hall, List.reverse_reverse, Nat.sub_self, List.take_zero]
  rfl

instance (e : Text) : Decidable (IsElement e) :=
  decidable_of_iff (e ≠ "" ∧ e ≠ "." ∧ e ≠ ".." ∧ slash ∉ e.bytes)
    ⟨fun h => ⟨h.1, h.2.1, h.2.2.1, h.2.2.2⟩, fun h => ⟨h.1, h.2, h.3, h.4⟩⟩

namespace IsElement

/-- There is nothing behind a slash in a name. -/
theorem after?_eq (h : IsElement name) : name.after? slash = none :=
  (Text.before_after?_of_notMem h.noSlash).2

/-- A name lies in the directory that the path starts from. -/
theorem dir_eq (h : IsElement name) : dir name = "." := by
  rw [dir, split_of_notMem h.noSlash]
  rfl

/-- A name is its own last element. -/
theorem base_eq (h : IsElement name) : base name = name := by
  have hne : name.isEmpty = false := Text.isEmpty_eq_false_iff.2 h.ne_empty
  have htrim : name.bytes.reverse.dropWhile (· = slash) = name.bytes.reverse := by
    rw [List.dropWhile_eq_self_iff]
    intro hpos hlast
    exact h.noSlash (of_decide_eq_true hlast ▸ List.mem_reverse.1 (List.getElem_mem hpos))
  have hname : (⟨name.bytes⟩ : Text) = name := rfl
  simp only [base, hne, Bool.false_eq_true, if_false, htrim, List.reverse_reverse, hname,
    split_of_notMem h.noSlash]

/-- A name behind the directory that the path starts from is the name. -/
theorem join_eq (h : IsElement name) : join "." name = name := by
  have hne : name.isEmpty = false := Text.isEmpty_eq_false_iff.2 h.ne_empty
  let parts : List Text := [".", name]
  have hparts : parts.filter (!·.isEmpty) = parts := by
    rw [List.filter_eq_self]
    intro part hpart
    rcases List.mem_pair.1 hpart with rfl | rfl
    · rfl
    · rw [hne]
      rfl
  have hnoSlash : ∀ part ∈ parts, slash ∉ part.bytes := by
    intro part hpart
    rcases List.mem_pair.1 hpart with rfl | rfl
    · decide
    · exact h.noSlash
  have hsplit : (Text.intercalate "/" parts).splitOn slash = parts :=
    Text.splitOn_intercalate hnoSlash (List.cons_ne_nil _ _)
  have hkeep : Path.keepElement false [] name = [name] := h.keepElement false []
  have helements : elements (Text.intercalate "/" parts) = [name] := by
    rw [elements, hsplit]
    exact congrArg List.reverse hkeep
  have hrooted : isAbsolute (Text.intercalate "/" parts) = false := rfl
  have hjoin : join "." name = clean (Text.intercalate "/" parts) := by rw [join, hparts]
  rw [hjoin, clean, helements, hrooted]
  simp [Text.intercalate, hne]

end IsElement

/-- What agrees with a name up to case is a name. -/
theorem isElement_of_equalFold {spelled : Text} (h : IsElement name)
    (hfold : spelled.equalFold name = true) : IsElement spelled := by
  have hsame {t : Text} (ht : (t.chars.all fun c => c.toNat < 0x41) = true) (he : spelled = t) :
      name = t := by
    subst he
    exact Text.eq_of_equalFold hfold (by simpa using ht)
  exact {
    ne_empty he := h.ne_empty (hsame rfl he)
    ne_dot he := h.ne_dot (hsame rfl he)
    ne_dots he := h.ne_dots (hsame rfl he)
    noSlash hslash := h.noSlash (Text.mem_bytes_of_equalFold hfold (by decide) hslash) }

end Path

/-! ### Folders -/

/-- The content of a file. -/
def Node.content? : Node → Option Text
  | file content => some content
  | directory => none

/-- What a directory holds: its names in order, and what they lead to. -/
abbrev Folder := List (Text × Node)

namespace Folder

/-- A folder as it is listed. -/
def entries (folder : Folder) : List Entry :=
  folder.map fun item => ⟨item.1, item.2.isDirectory⟩

/-- The files of a folder, with their contents. -/
def files (folder : Folder) : List (Text × Text) :=
  folder.filterMap fun item => item.2.content?.map (item.1, ·)

/-- A folder has a file with a name, up to case. -/
def Has (folder : Folder) (name : Text) : Prop :=
  ∃ f ∈ folder.files, f.1.equalFold name = true

instance (folder : Folder) (name : Text) : Decidable (folder.Has name) :=
  inferInstanceAs (Decidable (∃ f ∈ folder.files, f.1.equalFold name = true))

/-- The file that is taken for a name: the one with just that name, if there is one, and otherwise
the first with that name up to case. -/
structure Takes (folder : Folder) (name spelled content : Text) : Prop where
  mem : (spelled, content) ∈ folder.files
  fits : spelled.equalFold name = true
  exact : (∃ other, (name, other) ∈ folder.files) → spelled = name
  first : spelled ≠ name → ∃ before after, folder.files = before ++ (spelled, content) :: after ∧
    ∀ f ∈ before, f.1.equalFold name = false

theorem mem_files_iff {folder : Folder} {name content : Text} :
    (name, content) ∈ folder.files ↔ (name, .file content) ∈ folder := by
  rw [files, List.mem_filterMap]
  constructor
  · rintro ⟨⟨name', node⟩, hmem, hitem⟩
    cases node with
    | file content' =>
      cases hitem
      exact hmem
    | directory => cases hitem
  · exact fun h => ⟨_, h, rfl⟩

/-- What is listed as no directory is a file. -/
theorem mem_entries_iff {folder : Folder} {name : Text} :
    ⟨name, false⟩ ∈ folder.entries ↔ ∃ content, (name, content) ∈ folder.files := by
  rw [entries, List.mem_map]
  constructor
  · rintro ⟨⟨name', node⟩, hmem, hentry⟩
    cases node with
    | file content =>
      cases hentry
      exact ⟨content, mem_files_iff.2 hmem⟩
    | directory => cases hentry
  · rintro ⟨content, hmem⟩
    exact ⟨(name, .file content), mem_files_iff.1 hmem, rfl⟩

/-- Directories are passed over in a search through the names. -/
theorem find?_entries (folder : Folder) (name : Text) :
    folder.entries.find? (fun e => !e.isDirectory && e.name.equalFold name) =
      (folder.files.find? (·.1.equalFold name)).map fun f => ⟨f.1, false⟩ := by
  induction folder with
  | nil => rfl
  | cons item folder ih =>
    obtain ⟨spelled, node⟩ := item
    cases node with
    | directory => exact ih
    | file content =>
      have hentries : entries ((spelled, .file content) :: folder) =
          ⟨spelled, false⟩ :: entries folder := rfl
      have hfiles : files ((spelled, .file content) :: folder) =
          (spelled, content) :: files folder := rfl
      rw [hentries, hfiles, List.find?_cons, List.find?_cons, ih]
      cases spelled.equalFold name <;> rfl

/-- Where the exact name is missing, a search finds the file that is taken. -/
theorem takes_of_find? {folder : Folder} {name spelled content : Text}
    (hexact : ¬ ∃ other, (name, other) ∈ folder.files)
    (h : folder.files.find? (·.1.equalFold name) = some (spelled, content)) :
    folder.Takes name spelled content := by
  obtain ⟨hfits, before, after, hfiles, hbefore⟩ := List.find?_eq_some_iff_append.1 h
  refine ⟨List.mem_of_find?_eq_some h, hfits, fun hother => absurd hother hexact, fun _ => ?_⟩
  exact ⟨before, after, hfiles, by simpa using hbefore⟩

theorem Takes.has {folder : Folder} {name spelled content : Text}
    (h : folder.Takes name spelled content) : folder.Has name :=
  ⟨_, h.mem, h.fits⟩

/-- No two files have names that agree up to case. -/
def Distinct (folder : Folder) : Prop :=
  ∀ f ∈ folder.files, ∀ g ∈ folder.files, f.1.equalFold g.1 = true → f = g

/-- Then a search up to case finds the only file that fits. -/
theorem Distinct.find?_eq {folder : Folder} (h : folder.Distinct) {f : Text × Text}
    (hf : f ∈ folder.files) {name : Text} (hname : f.1.equalFold name = true) :
    folder.files.find? (·.1.equalFold name) = some f := by
  cases hfind : folder.files.find? (·.1.equalFold name) with
  | none => exact absurd hname (List.find?_eq_none.1 hfind f hf)
  | some g =>
    have hfold : g.1.equalFold name = true := by simpa using List.find?_some hfind
    have hsame : g.1.equalFold f.1 = true := Text.equalFold_iff.2
      ((Text.equalFold_iff.1 hfold).trans (Text.equalFold_iff.1 hname).symm)
    rw [h g (List.mem_of_find?_eq_some hfind) f hf hsame]

/-- If each name has one content, one content is taken. -/
theorem Takes.unique {folder : Folder} {name spelled spelled' content content' : Text}
    (hone : ∀ {n c c'}, (n, c) ∈ folder.files → (n, c') ∈ folder.files → c = c')
    (h : folder.Takes name spelled content) (h' : folder.Takes name spelled' content') :
    content = content' := by
  by_cases hexact : ∃ other, (name, other) ∈ folder.files
  · have hmem := h.mem
    have hmem' := h'.mem
    rw [h.exact hexact] at hmem
    rw [h'.exact hexact] at hmem'
    exact hone hmem hmem'
  · have hfind {s c : Text} (ht : folder.Takes name s c) :
        folder.files.find? (·.1.equalFold name) = some (s, c) := by
      have hne : s ≠ name := by
        rintro rfl
        exact hexact ⟨c, ht.mem⟩
      obtain ⟨before, after, hfiles, hbefore⟩ := ht.first hne
      exact List.find?_eq_some_iff_append.2
        ⟨ht.fits, before, after, hfiles, by simpa using hbefore⟩
    have heq := (hfind h).symm.trans (hfind h')
    exact (Prod.mk.inj (Option.some.inj heq)).2

end Folder

/-! ### Sources -/

namespace FileSource

/-- What a source says about its root hangs together. -/
structure Coherent (source : FileSource Id) : Prop where
  /-- A file in the root is listed there: under its name or, where names that differ in case lead
  to one file, under the only name that agrees with it. -/
  listed : ∀ {entries : List Entry} {name : Text}, (source.list ".").run = .ok entries →
    Path.IsElement name → (source.isFile name).run = true →
    ⟨name, false⟩ ∈ entries ∨ ∃ spelled, ⟨spelled, false⟩ ∈ entries ∧
      spelled.equalFold name = true ∧ (source.read name).run = (source.read spelled).run ∧
      ∀ other, ⟨other, false⟩ ∈ entries → other.equalFold name = true → other = spelled
  /-- What can be read is a file. -/
  isFile : ∀ {path content : Text}, (source.read path).run = .ok content →
    (source.isFile path).run = true

/-- A source whose root can be listed and whose files can be read, with what it holds. -/
structure Opens (source : FileSource Id) (folder : Folder) : Prop where
  coherent : source.Coherent
  list : (source.list ".").run = .ok folder.entries
  read : ∀ {name content : Text}, (name, content) ∈ folder.files →
    (source.read name).run = .ok content

namespace Opens

variable {source : FileSource Id} {folder : Folder} {name : Text}

/-- A name has one content. -/
theorem content_eq (h : source.Opens folder) {content content' : Text}
    (hmem : (name, content) ∈ folder.files) (hmem' : (name, content') ∈ folder.files) :
    content = content' :=
  Except.ok.inj ((h.read hmem).symm.trans (h.read hmem'))

/-- Where only one name agrees with a name up to case, the file that is taken has it. -/
theorem takes_of_unique (h : source.Opens folder) {spelled : Text}
    (hlisted : ⟨spelled, false⟩ ∈ folder.entries) (hfold : spelled.equalFold name = true)
    (honly : ∀ other, ⟨other, false⟩ ∈ folder.entries → other.equalFold name = true →
      other = spelled) :
    ∃ content, folder.Takes name spelled content := by
  obtain ⟨content, hmem⟩ := Folder.mem_entries_iff.1 hlisted
  refine ⟨content, hmem, hfold, ?_, fun _ => ?_⟩
  · rintro ⟨other, hother⟩
    exact (honly name (Folder.mem_entries_iff.2 ⟨other, hother⟩) (Text.equalFold_iff.2 rfl)).symm
  cases hfind : folder.files.find? (·.1.equalFold name) with
  | none => exact absurd hfold (List.find?_eq_none.1 hfind _ hmem)
  | some f =>
    obtain ⟨hfits, before, after, hfiles, hbefore⟩ := List.find?_eq_some_iff_append.1 hfind
    have hf := List.mem_of_find?_eq_some hfind
    obtain rfl := honly f.1 (Folder.mem_entries_iff.2 ⟨f.2, hf⟩) hfits
    obtain rfl := h.content_eq hmem hf
    exact ⟨before, after, hfiles, by simpa using hbefore⟩

/-- The file that is taken for a name is found. -/
theorem find (h : source.Opens folder) (hname : Path.IsElement name) :
    (∃ spelled content path, folder.Takes name spelled content ∧
      (source.find "." name).run = .ok path ∧ (source.read path).run = .ok content) ∨
    ¬ folder.Has name ∧ (source.find "." name).run = .error (.missing name ".") := by
  simp only [FileSource.find, hname.join_eq, Id.run_bind]
  cases hfile : (source.isFile name).run with
  | true =>
    refine .inl ?_
    rcases h.coherent.listed h.list hname hfile with
      hlisted | ⟨spelled, hlisted, hfold, hread, honly⟩
    · obtain ⟨content, hmem⟩ := Folder.mem_entries_iff.1 hlisted
      have hfits : name.equalFold name = true := Text.equalFold_iff.2 rfl
      exact ⟨name, content, name, ⟨hmem, hfits, fun _ => rfl, fun hne => absurd rfl hne⟩, rfl,
        h.read hmem⟩
    · obtain ⟨content, htakes⟩ := h.takes_of_unique hlisted hfold honly
      exact ⟨spelled, content, name, htakes, rfl, hread.trans (h.read htakes.mem)⟩
  | false =>
    have hexact : ¬ ∃ other, (name, other) ∈ folder.files := by
      rintro ⟨other, hmem⟩
      rw [h.coherent.isFile (h.read hmem)] at hfile
      cases hfile
    simp only [Bool.false_eq_true, if_false, Id.run_bind, h.list, Folder.find?_entries]
    cases hfind : folder.files.find? (·.1.equalFold name) with
    | none =>
      refine .inr ⟨?_, rfl⟩
      rintro ⟨f, hf, hfold⟩
      exact List.find?_eq_none.1 hfind f hf hfold
    | some f =>
      have htakes := Folder.takes_of_find? hexact hfind
      have hspelled := Path.isElement_of_equalFold hname htakes.fits
      exact .inl ⟨f.1, f.2, f.1, htakes, congrArg Except.ok hspelled.join_eq,
        h.read htakes.mem⟩

/-- **What is read for a name is decided by the folder.** It is the content of the file that is
taken, and the name is missing exactly if the folder has no such file. -/
theorem readAnyCase (h : source.Opens folder) (hname : Path.IsElement name)
    (hback : 0x5C ∉ name.bytes) :
    (∃ spelled content, folder.Takes name spelled content ∧
      (source.readAnyCase name).run = .ok content) ∨
    ¬ folder.Has name ∧ (source.readAnyCase name).run = .error (.missing name ".") := by
  have hslashed : name.replaceByte 0x5C Path.slash = name := by
    have hkeep : ∀ b ∈ name.bytes, (if b = 0x5C then Path.slash else b) = b := by
      intro b hb
      have hne : b ≠ 0x5C := fun he => hback (he ▸ hb)
      exact if_neg hne
    exact Text.ext ((List.map_congr_left hkeep).trans (List.map_id _))
  have hrelative : (Text.dropPrefix? "/" name).getD name = name := by
    rw [Text.dropPrefix?, if_neg]
    · rfl
    · intro hstarts
      obtain ⟨rest, hrest⟩ := List.isPrefixOf_iff_prefix.1 hstarts
      exact hname.noSlash (hrest ▸ List.mem_append_left _ (List.mem_singleton_self _))
  simp only [FileSource.readAnyCase, hslashed, hrelative, hname.dir_eq, hname.base_eq, Id.run_bind]
  rcases h.find hname with ⟨spelled, content, path, htakes, hfind, hread⟩ | ⟨hnone, hfind⟩
  · refine .inl ⟨spelled, content, htakes, ?_⟩
    simp only [hfind, Id.run_bind, hread]
    rfl
  · refine .inr ⟨hnone, ?_⟩
    simp only [hfind]
    rfl

end Opens

/-! ### Names in any case -/

/-- A source whose names lead to the same file in any case. -/
def ignoringCase (folder : Folder) : FileSource Id where
  isFile path := pure (folder.files.any (·.1.equalFold path))
  list path :=
    pure (if path = "." then .ok folder.entries else .error ⟨"open", path, .notDirectory⟩)
  read path := pure <|
    match folder.files.find? (·.1.equalFold path) with
    | some f => .ok f.2
    | none => .error ⟨"open", path, .notOnDisk⟩

/-- Such a source opens to its folder, if no two files there have names that agree up to case. -/
theorem opens_ignoringCase {folder : Folder} (h : folder.Distinct) :
    (ignoringCase folder).Opens folder where
  coherent := by
    refine ⟨fun {entries name} hlist _ hfile => Or.inr ?_, fun {path content} hread => ?_⟩
    · obtain rfl : folder.entries = entries := Except.ok.inj hlist
      obtain ⟨f, hf, hfold⟩ := List.any_eq_true.1 hfile
      refine ⟨f.1, Folder.mem_entries_iff.2 ⟨f.2, hf⟩, hfold, ?_, fun other hother hfold' => ?_⟩
      · simp only [ignoringCase, h.find?_eq hf hfold, h.find?_eq hf (Text.equalFold_iff.2 rfl)]
      · obtain ⟨content, hmem⟩ := Folder.mem_entries_iff.1 hother
        have hsame : other.equalFold f.1 = true := Text.equalFold_iff.2
          ((Text.equalFold_iff.1 hfold').trans (Text.equalFold_iff.1 hfold).symm)
        rw [← h _ hmem f hf hsame]
    · simp only [ignoringCase] at hread
      cases hfind : folder.files.find? (·.1.equalFold path) with
      | none =>
        rw [hfind] at hread
        cases hread
      | some f =>
        have hfold : f.1.equalFold path = true := by simpa using List.find?_some hfind
        exact List.any_eq_true.2 ⟨f, List.mem_of_find?_eq_some hfind, hfold⟩
  list := rfl
  read {name content} hmem := by
    simp only [ignoringCase, h.find?_eq hmem (Text.equalFold_iff.2 rfl)]
    rfl

end FileSource

/-! ### Libraries of files -/

namespace Library

variable {l : Library} {name content : Text}

theorem below?_dot (path : Text) : below? "." path = some path := rfl

/-- What has a name lies in the root. -/
theorem child?_of_isElement {item : Text × Node} (h : Path.IsElement item.1) :
    child? "." item = some ⟨item.1, item.2.isDirectory⟩ := by
  simp [child?, below?_dot, h.after?_eq, h.ne_dot]

theorem shown_of_isElement {e : Entry} (h : Path.IsElement e.name) : shown e = e := by
  rw [shown, h.base_eq]

/-- A file with a name is listed in the root. -/
theorem mem_children (hname : Path.IsElement name) (h : (name, .file content) ∈ l.nodes) :
    ⟨name, false⟩ ∈ l.children "." := by
  rw [children, List.mem_mergeSort, List.mem_map]
  refine ⟨⟨name, false⟩, List.mem_append_left _ ?_, shown_of_isElement hname⟩
  refine List.mem_filterMap.2 ⟨_, List.mem_filter.2 ⟨h, ?_⟩, child?_of_isElement hname⟩
  simp [below?_dot, hname.after?_eq]

theorem find?_eq_file_iff {path : Text} :
    l.find? path = some (.file content) ↔
      Path.isLibraryPath path = true ∧ l.node? path = some (.file content) := by
  rw [find?]
  cases Path.isLibraryPath path with
  | false => simp
  | true =>
    cases l.node? path with
    | some node => simp
    | none => simp

/-- A library lists its files by name, whatever it refuses. -/
theorem coherent_sourceWith (refusals : Refusals) (l : Library) :
    (l.sourceWith refusals : FileSource Id).Coherent where
  listed {entries name} hlist hname hfile := by
    have hentries : l.children "." = entries := by
      have hroot : (!Path.isLibraryPath ".") = false := rfl
      simp only [sourceWith, hroot, Bool.false_eq_true, if_false] at hlist
      cases hfind : l.find? "." with
      | none => rw [hfind] at hlist; cases hlist
      | some node =>
        rw [hfind] at hlist
        cases node with
        | file content => cases hlist
        | directory => exact Except.ok.inj hlist
    simp only [sourceWith] at hfile
    cases hfind : l.find? name with
    | none => rw [hfind] at hfile; cases hfile
    | some node =>
      rw [hfind] at hfile
      cases node with
      | directory => cases hfile
      | file content =>
        obtain ⟨item, hitem, hnode⟩ := Option.map_eq_some_iff.1 (find?_eq_file_iff.1 hfind).2
        have hpath : item.1 = name := by simpa using List.find?_some hitem
        have hmem := List.mem_of_find?_eq_some hitem
        have hnamed : (name, Node.file content) ∈ l.nodes := by rwa [← hpath, ← hnode]
        exact .inl (hentries ▸ mem_children hname hnamed)
  isFile {path content} hread := by
    simp only [sourceWith] at hread ⊢
    cases hfind : l.find? path with
    | none => rw [hfind] at hread; cases hread
    | some node =>
      rw [hfind] at hread
      cases node with
      | directory => cases hread
      | file content => rfl

/-- Everything in a library lies in the root, in order. -/
structure IsFlat (l : Library) : Prop where
  named : ∀ item ∈ l.nodes, Path.IsElement item.1 ∧ item.1.isValidUtf8 = true
  ordered : l.nodes.Pairwise fun a b => a.1 ≠ b.1 ∧ Text.le a.1 b.1 = true

namespace IsFlat

theorem children (h : l.IsFlat) : l.children "." = Folder.entries l.nodes := by
  have hchild : l.nodes.filterMap (child? ".") = Folder.entries l.nodes := by
    rw [List.filterMap_congr fun item hitem => child?_of_isElement (h.named item hitem).1,
      List.filterMap_eq_map']
    rfl
  have hlisted : (l.nodes.filter fun item =>
      !((below? "." item.1).bind (·.after? Path.slash)).isSome) = l.nodes := by
    rw [List.filter_eq_self]
    intro item hitem
    simp [below?_dot, (h.named item hitem).1.after?_eq]
  have himplied : (Folder.entries l.nodes).filter
      (fun e => !((Folder.entries l.nodes).any (·.name = e.name))) = [] := by
    rw [List.filter_eq_nil_iff]
    intro e he
    simp only [Bool.not_eq_true', Bool.not_eq_false, List.any_eq_true, decide_eq_true_eq]
    exact ⟨e, he, rfl⟩
  have hshown : (Folder.entries l.nodes).map shown = Folder.entries l.nodes := by
    rw [Folder.entries, List.map_map]
    exact List.map_congr_left fun item hitem => shown_of_isElement (h.named item hitem).1
  simp only [Library.children, hlisted, hchild, himplied, List.eraseDups_nil, List.append_nil,
    hshown]
  refine List.mergeSort_of_pairwise ?_
  rw [Folder.entries, List.pairwise_map]
  exact h.ordered.imp And.right

theorem node?_of_mem (h : l.IsFlat) {item : Text × Node} (hitem : item ∈ l.nodes) :
    l.node? item.1 = some item.2 := by
  obtain ⟨before, after, hnodes⟩ := List.append_of_mem hitem
  have hpairs := h.ordered
  rw [hnodes, List.pairwise_append] at hpairs
  have hfind : l.nodes.find? (·.1 = item.1) = some item := by
    refine List.find?_eq_some_iff_append.2 ⟨by simp, before, after, hnodes, fun other hother => ?_⟩
    simpa using (hpairs.2.2 other hother item List.mem_cons_self).1
  rw [node?, hfind]
  rfl

/-- A flat library opens to what it holds. -/
theorem opens (h : l.IsFlat) (refusals : Refusals) : (l.sourceWith refusals).Opens l.nodes where
  coherent := coherent_sourceWith refusals l
  list := by
    have hnone : l.node? "." = none := by
      rw [node?, Option.map_eq_none_iff, List.find?_eq_none]
      intro item hitem
      simpa using (h.named item hitem).1.ne_dot
    have hroot : l.find? "." = some .directory := by
      rw [find?, hnone]
      rfl
    simp only [sourceWith, hroot]
    exact congrArg Except.ok h.children
  read {name content} hmem := by
    have hitem := Folder.mem_files_iff.1 hmem
    obtain ⟨hname, hvalid⟩ := h.named _ hitem
    have hsplit : name.splitOn Path.slash = [name] := by
      rw [Text.splitOn_eq_map, List.splitOn_eq_singleton hname.noSlash]
      rfl
    have hpath : Path.isLibraryPath name = true := by
      simp [Path.isLibraryPath, hvalid, hsplit, hname.ne_empty, hname.ne_dot, hname.ne_dots]
    have hfind : l.find? name = some (.file content) :=
      find?_eq_file_iff.2 ⟨hpath, h.node?_of_mem hitem⟩
    simp only [sourceWith, hfind]
    rfl

end IsFlat

end Library

/-! ### Directories of a disk -/

/-- The names of a path that leads on from a directory: those of the directory, and then one. -/
theorem Storage.exists_splitOn_within (dir : Text) :
    ∃ front rooted, ∀ name : Text, Path.slash ∉ name.bytes →
      (within dir name).splitOn Path.slash = front ++ [name] ∧
        Path.isAbsolute (within dir name) = rooted := by
  obtain ⟨stem, hstem⟩ : ∃ stem, ∀ name : Text,
      (within dir name).bytes = stem ++ Path.slash :: name.bytes := by
    unfold within
    split
    · next hlast =>
      obtain ⟨stem, hdir⟩ := List.getLast?_eq_some_iff.1 hlast
      exact ⟨stem, fun name => by rw [Text.bytes_append, hdir, List.append_assoc]; rfl⟩
    · refine ⟨dir.bytes, fun name => ?_⟩
      rw [Text.bytes_append, Text.bytes_append, List.append_assoc]
      rfl
  refine ⟨Text.splitOn Path.slash ⟨stem⟩, decide ((stem ++ [Path.slash]).head? = some Path.slash),
    fun name hname => ⟨?_, ?_⟩⟩
  · rw [Text.splitOn_eq_map, Text.splitOn_eq_map, hstem, List.splitOn_append_cons_self,
      List.splitOn_eq_singleton hname, List.map_append, List.map_singleton]
  · rw [Path.isAbsolute, hstem]
    cases stem <;> rfl

namespace Disk

/-- What lies in a directory is found under its name. -/
theorem place_eq_of_find_within {d : Disk} {dir name : Text} {place place' : Place}
    {node node' : Node} (hname : Path.IsElement name)
    (hdir : d.find (Storage.within dir ".") = .ok (place, node))
    (h : d.find (Storage.within dir name) = .ok (place', node')) : place' = place ++ [name] := by
  obtain ⟨front, rooted, hwithin⟩ := Storage.exists_splitOn_within dir
  have hnames {file : Text} {names : List Text} (hfile : Path.slash ∉ file.bytes)
      (hnames : d.names (Storage.within dir file) = .ok names) :
      names = ((if rooted then [] else d.home) ++ front) ++ [file] := by
    obtain ⟨-, -, -, rfl⟩ := names_eq_ok_iff.1 hnames
    rw [(hwithin file hfile).1, (hwithin file hfile).2, List.append_assoc]
  obtain ⟨names, hok, hfollow, -⟩ := find_eq_ok_iff.1 hdir
  obtain ⟨names', hok', hfollow', -⟩ := find_eq_ok_iff.1 h
  obtain rfl := hnames (by decide) hok
  obtain rfl := hnames hname.noSlash hok'
  rw [follow_append] at hfollow hfollow'
  obtain ⟨at', hfront, hlast⟩ := bind_eq_ok_iff.1 hfollow
  obtain ⟨at'', hfront', hlast'⟩ := bind_eq_ok_iff.1 hfollow'
  obtain rfl := Except.ok.inj (hfront.symm.trans hfront')
  have hplace : at' = place := Except.ok.inj (follow_cons_eq_ok_iff.1 hlast).2
  have hstep := (follow_cons_eq_ok_iff.1 hlast').2
  simp only [hname.ne_empty, hname.ne_dot, hname.ne_dots, decide_false, Bool.or_false,
    Bool.false_eq_true, if_false] at hstep
  split at hstep
  · cases hstep
  · rw [← hplace]
    exact (Except.ok.inj hstep).symm

/-- A file on a disk is listed in its directory. -/
theorem mem_list_of_node? {d : Disk} {path name content : Text} {place : Place}
    {entries : List Entry} (hplace : d.find path = .ok (place, .directory))
    (hlist : d.list path = .ok entries) (h : d.node? (place ++ [name]) = some (.file content)) :
    ⟨name, false⟩ ∈ entries := by
  have hnode : (place ++ [name], .file content) ∈ d.nodes := by
    rw [node?, if_neg (by simp)] at h
    obtain ⟨before, after, hnodes, -⟩ := List.lookup_eq_some_iff.1 h
    rw [hnodes]
    exact List.mem_append_right _ List.mem_cons_self
  rw [list, hplace] at hlist
  rw [← Except.ok.inj hlist, List.mem_mergeSort]
  refine List.mem_filterMap.2 ⟨_, hnode, ?_⟩
  simp [Node.isDirectory]

/-- A directory of a disk lists its files by name. -/
theorem coherent_directory (d : Disk) (dir : Text) : (d.readOnly.directory dir).Coherent where
  listed {entries name} hlist hname hfile := by
    have hroot : (!Path.isLibraryPath ".") = false := rfl
    simp only [Storage.directory, hroot, Bool.false_eq_true, if_false] at hlist hfile
    have hlist' : d.list (Storage.within dir ".") = .ok entries := by
      simp only [readOnly, pure_bind] at hlist
      cases hanswer : d.list (Storage.within dir ".") with
      | error reason => rw [hanswer] at hlist; cases hlist
      | ok entries' =>
        rw [hanswer] at hlist
        exact congrArg Except.ok (Except.ok.inj hlist)
    split at hfile
    · cases hfile
    simp only [readOnly, pure_bind] at hfile
    cases hstat : d.stat (Storage.within dir name) with
    | error reason => rw [hstat] at hfile; cases hfile
    | ok info =>
      rw [hstat] at hfile
      obtain ⟨⟨place, node⟩, hdir, hinside⟩ := bind_eq_ok_iff.1 hlist'
      obtain ⟨⟨place', node'⟩, hfind, hinfo⟩ := bind_eq_ok_iff.1 hstat
      cases node with
      | file content => cases hinside
      | directory =>
        cases node' with
        | directory =>
          cases hinfo
          cases hfile
        | file content =>
          obtain ⟨-, -, -, hnode⟩ := find_eq_ok_iff.1 hfind
          rw [place_eq_of_find_within hname hdir hfind] at hnode
          exact .inl (mem_list_of_node? hdir hlist' hnode)
  isFile {path content} hread := by
    simp only [Storage.directory] at hread ⊢
    split at hread
    · cases hread
    · next hpath =>
      rw [if_neg hpath]
      simp only [readOnly, pure_bind] at hread ⊢
      cases hanswer : d.read (Storage.within dir path) with
      | error reason => rw [hanswer] at hread; cases hread
      | ok data =>
        rw [stat_of_read hanswer]
        rfl

end Disk

end IntLang
