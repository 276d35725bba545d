import IntLang.Proofs.Headers.Lookup

/-!
# Names that are advertised

The names of all headers come from the same folders as the headers themselves, but by a way of
their own: a file with the right extension is advertised without it, in lower case (`Advertises`).
Looking a name up, on the other hand, refuses some names and compares up to case.

The two agree but for two gaps (`available_resolves`). A file may be advertised under a name that
is refused, as `.hpp` is under no name at all. And the dotted capital I has `i` for its lower case
without folding together with it, so a file with that letter may be advertised and not be found.
-/

namespace IntLang

/-! ### Extensions -/

/-- An extension is the end of a path. -/
theorem Path.bytes_extension_suffix (path : Text) : (extension path).bytes <:+ path.bytes := by
  have hname : (split path).2.bytes <:+ path.bytes := by
    rw [← List.reverse_prefix]
    simpa [split] using List.takeWhile_prefix (l := path.bytes.reverse) (· != slash)
  refine List.IsSuffix.trans ?_ hname
  simp only [extension]
  split
  · exact List.nil_suffix
  · next hlength =>
    generalize (split path).2.bytes = name at hlength
    have hsplit := List.takeWhile_append_dropWhile (p := (· != 0x2E)) (l := name.reverse)
    have hhead := List.head?_dropWhile_not (· != 0x2E) name.reverse
    cases hdrop : name.reverse.dropWhile (· != 0x2E) with
    | nil =>
      rw [hdrop, List.append_nil] at hsplit
      exact absurd (by rw [hsplit, List.reverse_reverse]) hlength
    | cons b rest =>
      rw [hdrop] at hsplit hhead
      obtain rfl : b = 0x2E := by simpa using hhead
      rw [← List.reverse_prefix]
      exact ⟨rest, by simpa using hsplit⟩

namespace Headers

/-- What agrees with the extension of headers up to case has as many bytes, and they cannot be part
of a character that begins before them. -/
theorem of_equalFold_extension {t : Text} (h : t.equalFold extension = true) :
    t.bytes.length = extension.size ∧ BeginsClean t.glyphs := by
  have hchars : t.chars.map foldChar = ['.', 'h', 'p', 'p'] :=
    (Text.equalFold_iff.1 h).trans (by decide +kernel)
  have hascii : ∀ c ∈ t.chars, c.toNat < 0x80 := by
    intro c hc
    have hfold : foldChar c ∈ ['.', 'h', 'p', 'p'] := hchars ▸ List.mem_map_of_mem hc
    simp only [List.mem_cons, List.not_mem_nil, or_false] at hfold
    rcases hfold with hdot | hh | hp | hp
    · rw [eq_of_foldChar_eq (by decide) hdot]
      decide
    · exact lt_of_foldChar_eq (.inl rfl) hh
    · exact lt_of_foldChar_eq (.inr rfl) hp
    · exact lt_of_foldChar_eq (.inr rfl) hp
  obtain ⟨-, hlength⟩ := Text.isValidUtf8_of_lt hascii
  constructor
  · rw [hlength, ← List.length_map foldChar, hchars]
    rfl
  · intro g hg
    exact ⟨g.char, Text.eq_scalar_of_lt (hascii _ (List.mem_map_of_mem (List.mem_of_mem_head? hg)))⟩

/-! ### Advertised names -/

/-- A file is advertised under a name. -/
structure Advertises (file name : Text) : Prop where
  /-- The file is a header. -/
  fits : (Path.extension file).equalFold extension = true
  /-- The name is that of the file without its extension, in lower case. -/
  lower : (file.dropEnd extension.size).toLower = name

/-- A file without the dotted capital I agrees up to case with the name it is advertised under. -/
theorem Advertises.equalFold {file name : Text} (h : Advertises file name)
    (hdotted : dottedCapitalI ∉ file.chars) : file.equalFold (name ++ extension) = true := by
  obtain ⟨hlength, hclean⟩ := of_equalFold_extension h.fits
  obtain ⟨-, hextension⟩ := of_equalFold_extension (Text.equalFold_iff.2 rfl)
  let stem := file.dropEnd extension.size
  -- What is cut off is the extension, since in any case it has as many bytes.
  have hfile : stem ++ Path.extension file = file := by
    have htake := List.suffix_iff_eq_append.1 (Path.bytes_extension_suffix file)
    rw [hlength] at htake
    exact Text.ext htake
  have hchars : file.chars = stem.chars ++ (Path.extension file).chars := by
    rw [← Text.chars_append _ hclean, hfile]
  have hlower : name.chars = stem.chars.map lowerChar := by
    rw [← h.lower, Text.toLower, Text.chars_ofChars]
  have hstem : ∀ c ∈ stem.chars, foldChar (lowerChar c) = foldChar c := by
    intro c hc
    refine foldChar_lowerChar fun he => hdotted ?_
    rw [hchars, ← he]
    exact List.mem_append_left _ hc
  rw [Text.equalFold_iff]
  calc file.chars.map foldChar
      = stem.chars.map foldChar ++ extension.chars.map foldChar := by
        rw [hchars, List.map_append, Text.equalFold_iff.1 h.fits]
    _ = name.chars.map foldChar ++ extension.chars.map foldChar := by
        rw [hlower, List.map_map, ← List.map_congr_left hstem]
        rfl
    _ = (name ++ extension).chars.map foldChar := by
        rw [Text.chars_append _ hextension, List.map_append]

variable {sources : List (FileSource Id)} {folders : List Folder}

/-- The names of one source are those that its files are advertised under. -/
theorem mem_namesIn_iff {source : FileSource Id} {folder : Folder} (h : source.Opens folder)
    {name : Text} : name ∈ (namesIn source).run ↔ ∃ f ∈ folder.files, Advertises f.1 name := by
  have hnames : (namesIn source).run =
      (Text.sort ((folder.entries.filter fun e =>
        !e.isDirectory && (Path.extension e.name).equalFold extension).map Entry.name)).map
        fun file => (file.dropEnd extension.size).toLower := by
    simp only [namesIn, FileSource.withExtension, Id.run_bind, h.list]
    rfl
  rw [hnames, List.mem_map]
  constructor
  · rintro ⟨file, hfile, hlower⟩
    obtain ⟨⟨_, isDirectory⟩, hentry, rfl⟩ := List.mem_map.1 (List.mem_mergeSort.1 hfile)
    obtain ⟨hmem, hfits⟩ := List.mem_filter.1 hentry
    rw [Bool.and_eq_true, Bool.not_eq_true'] at hfits
    obtain ⟨rfl, hfits⟩ := hfits
    obtain ⟨content, hmem⟩ := Folder.mem_entries_iff.1 hmem
    exact ⟨_, hmem, hfits, hlower⟩
  · rintro ⟨⟨file, content⟩, hmem, hfits, hlower⟩
    have hentry := Folder.mem_entries_iff.2 ⟨content, hmem⟩
    refine ⟨file, List.mem_mergeSort.2 (List.mem_map.2 ⟨⟨file, false⟩, ?_, rfl⟩), hlower⟩
    exact List.mem_filter.2 ⟨hentry, hfits⟩

theorem mem_available_iff (hopens : List.Forall₂ FileSource.Opens sources folders) {name : Text} :
    name ∈ (available sources).run ↔
      ∃ folder ∈ folders, ∃ f ∈ folder.files, Advertises f.1 name := by
  have hnames : name ∈ (available sources).run ↔
      ∃ source ∈ sources, name ∈ (namesIn source).run := by
    simp only [available, Id.run_bind, List.idRun_mapM, Id.run_pure, List.mem_eraseDups,
      List.mem_flatten, List.mem_map, exists_exists_and_eq_and]
  rw [hnames]
  clear hnames
  induction hopens with
  | nil => simp
  | cons hopen _ ih => simp only [List.exists_mem_cons_iff, mem_namesIn_iff hopen, ih]

/-- Nothing is repeated where duplicates are dropped. -/
theorem nodup_eraseDups (names : List Text) : names.eraseDups.Nodup := by
  cases names with
  | nil => simp
  | cons name names =>
    rw [List.eraseDups_cons, List.nodup_cons]
    refine ⟨fun hmem => ?_, nodup_eraseDups (names.filter fun other => !other == name)⟩
    simpa using List.mem_filter.1 (List.mem_eraseDups.1 hmem)
termination_by names.length
decreasing_by exact Nat.lt_succ_of_le (List.length_filter_le _ _)

/-- **What is advertised can be imported, with two gaps.** No name is advertised twice, and the
names are those of the headers in the folders. A name is found exactly if it is not refused and a
file has it up to case, and that is so for each file without a dotted capital I. -/
theorem available_resolves (hopens : List.Forall₂ FileSource.Opens sources folders) :
    (available sources).run.Nodup ∧
    (∀ name, name ∈ (available sources).run ↔
      ∃ folder ∈ folders, ∃ f ∈ folder.files, Advertises f.1 name) ∧
    (∀ name ∈ (available sources).run, (∃ content, (resolve sources name).run = .ok content) ↔
      ¬ IsRefused name ∧ ∃ folder ∈ folders, folder.Has (name ++ extension)) ∧
    ∀ name, ¬ IsRefused name →
      (∃ folder ∈ folders, ∃ f ∈ folder.files,
        Advertises f.1 name ∧ dottedCapitalI ∉ f.1.chars) →
      ∃ content, (resolve sources name).run = .ok content := by
  refine ⟨nodup_eraseDups _, fun name => mem_available_iff hopens, fun name _ => ?_, ?_⟩
  · constructor
    · rintro ⟨content, hok⟩
      have hname := not_isRefused_of_resolve hok
      exact ⟨hname, (exists_resolve_iff hopens hname).1 ⟨content, hok⟩⟩
    · rintro ⟨hname, hhas⟩
      exact (exists_resolve_iff hopens hname).2 hhas
  · rintro name hname ⟨folder, hfolder, f, hf, hadvertises, hdotted⟩
    rw [exists_resolve_iff hopens hname]
    exact ⟨folder, hfolder, f, hf, hadvertises.equalFold hdotted⟩

/-- A header whose name is the Kelvin sign, which is no letter of ASCII but folds to one. -/
def kelvin : Library where
  nodes := [("\u212A.hpp", .file "kelvin")]

/-- The header is advertised under the letter, and found under it. -/
theorem available_resolves_kelvin :
    List.Forall₂ FileSource.Opens [kelvin.source] [kelvin.nodes] ∧
    ("k" : Text) ∈ Id.run (available [kelvin.source]) ∧
    ∃ content, Id.run (resolve [kelvin.source] "k") = .ok content := by
  have hopens : List.Forall₂ FileSource.Opens [kelvin.source] [kelvin.nodes] :=
    .cons (Library.IsFlat.opens ⟨by decide, by decide⟩ _) .nil
  have hname : ¬ IsRefused "k" := isHeaderName_iff.1 (by decide)
  have hadvertises : Advertises "\u212A.hpp" "k" := ⟨by decide +kernel, by decide +kernel⟩
  have hfile : ∃ folder ∈ [kelvin.nodes], ∃ f ∈ Folder.files folder, Advertises f.1 "k" ∧
      dottedCapitalI ∉ f.1.chars :=
    ⟨_, List.mem_cons_self, _, List.mem_cons_self, hadvertises, by decide +kernel⟩
  obtain ⟨-, hmem, -, hresolves⟩ := available_resolves hopens
  refine ⟨hopens, (hmem "k").2 ?_, hresolves "k" hname hfile⟩
  exact ⟨_, List.mem_cons_self, _, List.mem_cons_self, hadvertises⟩

/-- A header without a name, and one whose name is the dotted capital I. -/
def unreachable : Library where
  nodes := [(".hpp", .file "nameless"), ("\u0130.hpp", .file "dotted")]

/-- Both headers are advertised. The one is refused, and the other is not found. -/
theorem available_resolves_unreachable :
    List.Forall₂ FileSource.Opens [unreachable.source] [unreachable.nodes] ∧
    (("" : Text) ∈ Id.run (available [unreachable.source]) ∧
      ¬ ∃ content, Id.run (resolve [unreachable.source] "") = .ok content) ∧
    ("i" : Text) ∈ Id.run (available [unreachable.source]) ∧
      ¬ ∃ content, Id.run (resolve [unreachable.source] "i") = .ok content := by
  have hopens : List.Forall₂ FileSource.Opens [unreachable.source] [unreachable.nodes] :=
    .cons (Library.IsFlat.opens ⟨by decide, by decide⟩ _) .nil
  have hname : ¬ IsRefused "i" := isHeaderName_iff.1 (by decide)
  have hnone : ¬ ∃ folder ∈ [unreachable.nodes], Folder.Has folder ("i" ++ extension) := by
    decide +kernel
  have hnameless : Advertises ".hpp" "" := ⟨by decide +kernel, by decide +kernel⟩
  have hdotted : Advertises "\u0130.hpp" "i" := ⟨by decide +kernel, by decide +kernel⟩
  refine ⟨hopens, ⟨(mem_available_iff hopens).2 ?_, ?_⟩, (mem_available_iff hopens).2 ?_, ?_⟩
  · exact ⟨_, List.mem_cons_self, _, List.mem_cons_self, hnameless⟩
  · rintro ⟨content, hok⟩
    exact not_isRefused_of_resolve hok (.inl rfl)
  · exact ⟨_, List.mem_cons_self, _, List.mem_cons_of_mem _ List.mem_cons_self, hdotted⟩
  · rwa [exists_resolve_iff hopens hname]

end Headers

end IntLang
