import IntLang.Proofs.Files.Writing

/-!
# Absolute paths

The shortest spelling of an absolute path is its own shortest spelling (`Path.clean_clean`), and so
is the absolute form of any path (`Disk.clean_absolute`). So a watcher that is given the absolute
form of a path knows the file by it.

The absolute form of a path that leads somewhere is the path of that place
(`Disk.absolute_eq_of_follow`), since to take `..` away together with the name before it is to go
where it leads: there is nothing on a disk but directories and files. So the directory of a file
that can be read is a directory of the disk (`Disk.exists_find_dir`).
-/

namespace IntLang

namespace Path

/-- A name that stays in a shortest spelling. -/
structure IsElement (e : Text) : Prop where
  ne_empty : e ≠ ""
  ne_dot : e ≠ "."
  ne_dots : e ≠ ".."
  noSlash : slash ∉ e.bytes

/-- Below the root nothing but such names is kept. -/
theorem isElement_of_mem_keepElement {kept : List Text} (h : ∀ e ∈ kept, IsElement e)
    {name : Text} (hname : slash ∉ name.bytes) :
    ∀ e ∈ keepElement true kept name, IsElement e := by
  unfold keepElement
  split
  · exact h
  next hdot =>
  simp only [Bool.or_eq_true, decide_eq_true_eq, not_or] at hdot
  split
  · cases kept with
    | nil => simp
    | cons last others =>
      dsimp only
      rw [if_neg (h last List.mem_cons_self).ne_dots]
      exact fun e he => h e (List.mem_cons_of_mem last he)
  · next hdots =>
    intro e he
    rcases List.mem_cons.1 he with rfl | he
    · exact ⟨hdot.1, hdot.2, hdots, hname⟩
    · exact h e he

theorem isElement_of_mem_elements {path : Text} (hpath : isAbsolute path = true) :
    ∀ e ∈ elements path, IsElement e := by
  have hfold : ∀ (names kept : List Text), (∀ name ∈ names, slash ∉ name.bytes) →
      (∀ e ∈ kept, IsElement e) → ∀ e ∈ names.foldl (keepElement true) kept, IsElement e := by
    intro names
    induction names with
    | nil => exact fun _ _ h => h
    | cons name names ih =>
      intro kept hnames hkept
      exact ih _ (fun n hn => hnames n (List.mem_cons_of_mem name hn))
        (isElement_of_mem_keepElement hkept (hnames name List.mem_cons_self))
  intro e he
  rw [elements, hpath, List.mem_reverse] at he
  exact hfold _ [] (fun _ hname => Text.notMem_of_mem_splitOn hname) (by simp) e he

/-- Such a name is kept. -/
theorem IsElement.keepElement {e : Text} (he : IsElement e) (rooted : Bool) (kept : List Text) :
    keepElement rooted kept e = e :: kept := by
  simp [Path.keepElement, he.ne_empty, he.ne_dot, he.ne_dots]

/-- So are several. -/
theorem foldl_keepElement {es : List Text} (h : ∀ e ∈ es, IsElement e) (rooted : Bool)
    (kept : List Text) : es.foldl (keepElement rooted) kept = es.reverse ++ kept := by
  induction es generalizing kept with
  | nil => rfl
  | cons e es ih =>
    rw [List.foldl_cons, (h e List.mem_cons_self).keepElement,
      ih fun e' he' => h e' (List.mem_cons_of_mem e he')]
    simp

theorem clean_of_isAbsolute {path : Text} (h : isAbsolute path = true) :
    clean path = "/" ++ Text.intercalate "/" (elements path) := by
  simp [clean, h]

/-- The pieces of a path below the root: an empty one, and the names that it is put together
from. -/
theorem splitOn_rooted {es : List Text} (h : ∀ e ∈ es, slash ∉ e.bytes) :
    ("/" ++ Text.intercalate "/" es : Text).splitOn slash =
      .empty :: if es = [] then [.empty] else es := by
  have hsplit : ("/" ++ Text.intercalate "/" es : Text).splitOn slash =
      .empty :: (Text.intercalate "/" es).splitOn slash :=
    Text.splitOn_append_cons (t := .empty) List.not_mem_nil (Text.intercalate "/" es).bytes
  rw [hsplit]
  split
  · next hes =>
      subst hes
      rfl
  · next hes =>
      exact congrArg _ (Text.splitOn_intercalate h hes)

/-- The names of a path below the root are those it is put together from. -/
theorem elements_rooted {es : List Text} (h : ∀ e ∈ es, IsElement e) :
    elements ("/" ++ Text.intercalate "/" es) = es := by
  have hrooted : isAbsolute ("/" ++ Text.intercalate "/" es) = true := rfl
  have hskip : keepElement true [] .empty = [] := rfl
  rw [elements, hrooted, splitOn_rooted fun e he => (h e he).noSlash, List.foldl_cons, hskip]
  split
  · next hes =>
      subst hes
      rfl
  · rw [foldl_keepElement h, List.append_nil, List.reverse_reverse]

/-- A path behind one below the root goes on from the names of that. -/
theorem elements_behind {es : List Text} (h : ∀ e ∈ es, IsElement e) (path : Text) :
    elements ("/" ++ Text.intercalate "/" es ++ "/" ++ path) =
      ((path.splitOn slash).foldl (keepElement true) es.reverse).reverse := by
  have hsplit : ("/" ++ Text.intercalate "/" es ++ "/" ++ path : Text).splitOn slash =
      ("/" ++ Text.intercalate "/" es : Text).splitOn slash ++ path.splitOn slash := by
    rw [← Text.splitOn_append_cons_self]
    exact congrArg _ (Text.ext (List.append_assoc _ _ _))
  have hfold : (("/" ++ Text.intercalate "/" es : Text).splitOn slash).foldl (keepElement true) []
      = es.reverse := List.reverse_eq_iff.1 (elements_rooted h)
  have hrooted : isAbsolute ("/" ++ Text.intercalate "/" es ++ "/" ++ path) = true := rfl
  rw [elements, hrooted, hsplit, List.foldl_append, hfold]

/-- The shortest spelling of a path below the root is its own shortest spelling. -/
theorem clean_clean {path : Text} (h : isAbsolute path = true) :
    clean (clean path) = clean path := by
  have helements := elements_rooted (isElement_of_mem_elements h)
  rw [clean_of_isAbsolute h, clean_of_isAbsolute rfl, helements]

/-- A path is cut before the name at its end. -/
theorem split_append (stem : Text) {name : Text} (h : slash ∉ name.bytes) :
    split (stem ++ "/" ++ name) = (stem ++ "/", name) := by
  have hname : ∀ b ∈ name.bytes.reverse, (b != slash) = true := fun b hb =>
    bne_iff_ne.2 fun he => h (he ▸ List.mem_reverse.1 hb)
  have hbytes : (stem ++ "/" ++ name).bytes.reverse =
      name.bytes.reverse ++ slash :: stem.bytes.reverse := by
    rw [Text.bytes_append, Text.bytes_append, List.reverse_append, List.reverse_append]
    rfl
  have hbehind : ((stem ++ "/" ++ name).bytes.reverse.takeWhile (· != slash)).reverse =
      name.bytes := by
    rw [hbytes, List.takeWhile_append_of_pos hname, List.takeWhile_cons_of_neg (by simp),
      List.append_nil, List.reverse_reverse]
  rw [split, hbehind]
  refine Prod.ext (Text.ext ?_) rfl
  have hlength : (stem ++ "/" ++ name).bytes.length - name.bytes.length =
      (stem ++ "/").bytes.length := by
    rw [Text.bytes_append, List.length_append, Nat.add_sub_cancel]
  change ((stem ++ "/").bytes ++ name.bytes).take _ = _
  rw [hlength, List.take_left]

/-- The directory of a path below the root is without the last name. -/
theorem dir_rooted {es : List Text} (h : ∀ e ∈ es, IsElement e) {name : Text}
    (hname : slash ∉ name.bytes) :
    dir ("/" ++ Text.intercalate "/" (es ++ [name])) = "/" ++ Text.intercalate "/" es := by
  obtain rfl | hes := eq_or_ne es []
  · have hsplit := split_append .empty hname
    rw [dir]
    exact congrArg (clean ·.1) hsplit
  · have hbehind := elements_behind h .empty
    have hskip : (Text.splitOn slash .empty).foldl (keepElement true) es.reverse = es.reverse := rfl
    rw [Text.append_empty, hskip, List.reverse_reverse] at hbehind
    have hpath : "/" ++ Text.intercalate "/" (es ++ [name]) =
        "/" ++ Text.intercalate "/" es ++ "/" ++ name := by
      rw [Text.intercalate_concat _ hes]
      exact Text.ext (by simp)
    rw [dir, hpath, split_append _ hname, clean_of_isAbsolute rfl, hbehind]

end Path

namespace Disk

/-- The absolute form of a path is the shortest spelling of some path below the root. -/
theorem exists_absolute_eq_clean (d : Disk) (path : Text) :
    ∃ long, Path.isAbsolute long = true ∧ d.absolute path = Path.clean long := by
  rw [absolute]
  split
  · next h => exact ⟨path, h, rfl⟩
  · have hparts : ["/" ++ Disk.path d.home, path].filter (!·.isEmpty) =
        ("/" ++ Disk.path d.home) :: [path].filter (!·.isEmpty) := rfl
    have hrooted (ts : List Text) :
        Path.isAbsolute (Text.intercalate "/" (("/" ++ Disk.path d.home) :: ts)) = true := by
      cases ts <;> rfl
    exact ⟨_, hrooted _, by rw [Path.join, hparts]⟩

theorem clean_absolute (d : Disk) (path : Text) :
    Path.clean (d.absolute path) = d.absolute path := by
  obtain ⟨long, hlong, h⟩ := d.exists_absolute_eq_clean path
  rw [h, Path.clean_clean hlong]

/-! ### The places that paths lead to -/

/-- A name that a place can have. -/
structure IsPart (name : Text) : Prop extends Path.IsElement name where
  noZero : 0 ∉ name.bytes
  size_le : name.size ≤ longestName

/-- A place that names lead to: all places above it are directories. -/
structure Reached (d : Disk) (place : Place) : Prop where
  above : ∀ up, up <+: place → up ≠ place → d.node? up = some .directory
  part : ∀ name ∈ place, IsPart name

namespace Reached

variable {d : Disk} {place : Place}

theorem root (d : Disk) : d.Reached [] :=
  ⟨fun _ hup hne => absurd (List.prefix_nil.1 hup) hne, by simp⟩

/-- So are the places above. -/
theorem dropLast (h : d.Reached place) : d.Reached place.dropLast where
  above := by
    intro up hup hne
    have hplace : place.dropLast <+: place := List.dropLast_prefix place
    refine h.above up (hup.trans hplace) fun he => hne ?_
    subst he
    exact hup.eq_of_length_le hplace.length_le
  part := fun name hname => h.part name (List.dropLast_subset place hname)

/-- So is what is in a directory. -/
theorem concat (h : d.Reached place) (hdir : d.node? place = some .directory) {name : Text}
    (hname : IsPart name) : d.Reached (place ++ [name]) where
  above := by
    intro up hup hne
    rcases List.prefix_concat_iff.1 hup with rfl | hup
    · exact absurd rfl hne
    · by_cases he : up = place
      · exact he ▸ hdir
      · exact h.above up hup he
  part := by
    intro other hother
    rcases List.mem_append.1 hother with hother | hother
    · exact h.part other hother
    · exact List.mem_singleton.1 hother ▸ hname

/-- To take `..` away with the name before it is to go up. -/
theorem keepElement_dots (h : d.Reached place) :
    Path.keepElement true place.reverse ".." = place.dropLast.reverse := by
  obtain rfl | ⟨init, last, rfl⟩ := List.eq_nil_or_concat' place
  · rfl
  · have hlast : last ≠ ".." := (h.part last (by simp)).ne_dots
    rw [List.reverse_concat, List.dropLast_concat]
    exact if_neg hlast

/-- The names of such a place lead to it. -/
theorem follow {start rest : Place} (h : d.Reached (start ++ rest)) :
    d.follow start rest = .ok (start ++ rest) := by
  induction rest generalizing start with
  | nil => simp [Disk.follow]
  | cons name rest ih =>
      have hname := h.part name (by simp)
      have hdir : d.node? start = some .directory :=
        h.above start (List.prefix_append _ _) (by simp)
      have hstep : d.follow start (name :: rest) = d.follow (start ++ [name]) rest := by
        simp [Disk.follow, hdir, hname.ne_empty, hname.ne_dot, hname.ne_dots,
          Nat.not_lt.2 hname.size_le]
      have happend : start ++ name :: rest = start ++ [name] ++ rest := by simp
      rw [hstep, happend]
      exact ih (happend ▸ h)

end Reached

/-- Names lead to the place that is left of them when each `..` takes away the name before it. -/
theorem reached_of_follow {d : Disk} {start place : Place} {names : List Text}
    (h : d.follow start names = .ok place)
    (hnames : ∀ name ∈ names, Path.slash ∉ name.bytes ∧ 0 ∉ name.bytes) (hstart : d.Reached start) :
    d.Reached place ∧ names.foldl (Path.keepElement true) start.reverse = place.reverse := by
  induction names generalizing start with
  | nil =>
      cases h
      exact ⟨hstart, rfl⟩
  | cons name names ih =>
      obtain ⟨hdir, h⟩ := follow_cons_eq_ok_iff.1 h
      obtain ⟨hslash, hzero⟩ := hnames name List.mem_cons_self
      have hrest : ∀ other ∈ names, Path.slash ∉ other.bytes ∧ 0 ∉ other.bytes :=
        fun other hother => hnames other (List.mem_cons_of_mem name hother)
      rw [List.foldl_cons]
      split at h
      · next hdot =>
          have hkeep : Path.keepElement true start.reverse name = start.reverse := if_pos hdot
          rw [hkeep]
          exact ih h hrest hstart
      next hdot =>
      split at h
      · next hdots =>
          rw [hdots, hstart.keepElement_dots]
          exact ih h hrest hstart.dropLast
      next hdots =>
      split at h
      · cases h
      next hsize =>
      simp only [Bool.or_eq_true, decide_eq_true_eq, not_or] at hdot
      have hpart : IsPart name :=
        ⟨⟨hdot.1, hdot.2, hdots, hslash⟩, hzero, Nat.not_lt.1 hsize⟩
      rw [hpart.keepElement, ← List.reverse_concat]
      exact ih h hrest (hstart.concat hdir hpart)

/-! ### Their paths -/

/-- The names that a path is followed by: those of the working directory, if the path is relative,
and its own. -/
theorem names_eq_ok_iff {d : Disk} {path : Text} {names : List Text} :
    d.names path = .ok names ↔ 0 ∉ path.bytes ∧ path.size ≤ longestPath ∧ path ≠ "" ∧
      names = (if Path.isAbsolute path then [] else d.home) ++ path.splitOn Path.slash := by
  have hzero : path.hasByte 0 = true ↔ 0 ∈ path.bytes := List.contains_iff_mem
  rw [Disk.names]
  split
  · next h => simp [hzero.1 h]
  next h =>
  split
  · next h' => simp [Nat.not_le.2 h']
  next h' =>
  split
  · next hempty => simp [Text.isEmpty_eq_true_iff.1 hempty]
  · next hempty =>
      have hne : path ≠ "" := fun he => hempty (Text.isEmpty_eq_true_iff.2 he)
      simp only [mt hzero.2 h, Nat.not_lt.1 h', hne, Except.ok.injEq, not_false_eq_true,
        ne_eq, true_and]
      exact eq_comm

theorem isElement_home (d : Disk) :
    ∀ name ∈ d.home, Path.IsElement name ∧ 0 ∉ name.bytes := by
  intro name hname
  have hplain := List.all_eq_true.1 d.home_plain name hname
  simp only [Path.isPlain, Text.hasByte, Bool.not_eq_true', Bool.or_eq_false_iff,
    decide_eq_false_iff_not] at hplain
  obtain ⟨⟨⟨⟨hempty, hdot⟩, hdots⟩, hslash⟩, hzero⟩ := hplain
  exact ⟨⟨hempty, hdot, hdots, by simpa using hslash⟩, by simpa using hzero⟩

/-- No such name has a slash or a zero byte. -/
theorem notMem_of_mem_names {d : Disk} {path : Text} {names : List Text}
    (h : d.names path = .ok names) :
    ∀ name ∈ names, Path.slash ∉ name.bytes ∧ 0 ∉ name.bytes := by
  obtain ⟨hzero, -, -, rfl⟩ := names_eq_ok_iff.1 h
  intro name hname
  rcases List.mem_append.1 hname with hname | hname
  · split at hname
    · exact absurd hname List.not_mem_nil
    · obtain ⟨helement, hzero'⟩ := d.isElement_home name hname
      exact ⟨helement.noSlash, hzero'⟩
  · exact ⟨Text.notMem_of_mem_splitOn hname, fun h0 => hzero (Text.mem_of_mem_splitOn hname h0)⟩

/-- The absolute form of a path is the path of what is left of its names. -/
theorem absolute_eq_of_names {d : Disk} {path : Text} {names : List Text}
    (h : d.names path = .ok names) :
    d.absolute path = "/" ++ Disk.path (names.foldl (Path.keepElement true) []).reverse := by
  obtain ⟨-, -, hne, rfl⟩ := names_eq_ok_iff.1 h
  rw [absolute]
  split
  · next habsolute =>
      rw [Path.clean_of_isAbsolute habsolute, Path.elements, habsolute]
      rfl
  · have hhome : ∀ name ∈ d.home, Path.IsElement name := fun name hname =>
      (d.isElement_home name hname).1
    have hparts : ["/" ++ Disk.path d.home, path].filter (!·.isEmpty) =
        ["/" ++ Disk.path d.home, path] := by
      have hempty : path.isEmpty = false := Text.isEmpty_eq_false_iff.2 hne
      rw [List.filter_cons_of_pos rfl, List.filter_cons_of_pos (by simp [hempty]),
        List.filter_nil]
    have hjoin : Path.join ("/" ++ Disk.path d.home) path =
        Path.clean ("/" ++ Disk.path d.home ++ "/" ++ path) := by
      rw [Path.join, hparts]
      rfl
    rw [hjoin, Path.clean_of_isAbsolute rfl, List.foldl_append, Path.foldl_keepElement hhome,
      List.append_nil, Disk.path, Path.elements_behind hhome]
    rfl

/-- The absolute form of a path is the path of the place that it leads to. -/
theorem absolute_eq_of_follow {d : Disk} {path : Text} {names : List Text} {place : Place}
    (hnames : d.names path = .ok names) (hfollow : d.follow [] names = .ok place) :
    d.Reached place ∧ d.absolute path = "/" ++ Disk.path place := by
  obtain ⟨hplace, hfold⟩ :=
    reached_of_follow hfollow (notMem_of_mem_names hnames) (Reached.root d)
  rw [List.reverse_nil] at hfold
  refine ⟨hplace, ?_⟩
  rw [absolute_eq_of_names hnames, hfold, List.reverse_reverse]

/-- The path of a place leads to it. -/
theorem find_rooted {d : Disk} {place : Place} {node : Node} (h : d.Reached place)
    (hnode : d.node? place = some node) (hsize : ("/" ++ Disk.path place).size ≤ longestPath) :
    d.find ("/" ++ Disk.path place) = .ok (place, node) := by
  have hsplit := Path.splitOn_rooted fun name hname => (h.part name hname).noSlash
  refine find_eq_ok_iff.2 ⟨_, names_eq_ok_iff.2 ⟨?_, hsize, ?_, rfl⟩, ?_, hnode⟩
  · intro hzero
    obtain ⟨piece, hpiece, hmem⟩ := Text.exists_mem_splitOn (b := Path.slash) hzero (by decide)
    rw [Disk.path, hsplit] at hpiece
    rcases List.mem_cons.1 hpiece with rfl | hpiece
    · exact absurd hmem List.not_mem_nil
    · split at hpiece
      · exact absurd (List.mem_singleton.1 hpiece ▸ hmem) List.not_mem_nil
      · exact (h.part piece hpiece).noZero hmem
  · intro hempty
    have hbytes := congrArg Text.bytes hempty
    exact List.cons_ne_nil _ _ hbytes
  · have hrooted : Path.isAbsolute ("/" ++ Disk.path place) = true := rfl
    rw [if_pos hrooted, List.nil_append, Disk.path, hsplit]
    have hroot (names : List Text) : d.follow [] (.empty :: names) = d.follow [] names := rfl
    rw [hroot]
    split
    · next hplace =>
        subst hplace
        rfl
    · exact @Reached.follow d [] place h

/-- The directory of a file that can be read is there, if its path is not too long. -/
theorem exists_find_dir {d : Disk} {path content : Text} (h : d.read path = .ok content)
    (hsize : (Path.dir (d.absolute path)).size ≤ longestPath) :
    ∃ place, d.find (Path.dir (d.absolute path)) = .ok (place, .directory) := by
  obtain ⟨⟨place, node⟩, hfind, h⟩ := bind_eq_ok_iff.1 h
  obtain ⟨names, hnames, hfollow, hnode⟩ := find_eq_ok_iff.1 hfind
  obtain ⟨hplace, habsolute⟩ := absolute_eq_of_follow hnames hfollow
  obtain rfl | ⟨dir, name, rfl⟩ := List.eq_nil_or_concat' place
  · cases hnode
    cases h
  · have hdir : d.Reached dir := by simpa using hplace.dropLast
    have hnode : d.node? dir = some .directory :=
      hplace.above dir (List.prefix_append _ _) (by simp)
    have hpath : Path.dir (d.absolute path) = "/" ++ Disk.path dir := by
      rw [habsolute]
      exact Path.dir_rooted (fun e he => (hdir.part e he).toIsElement)
        (hplace.part name (by simp)).noSlash
    rw [hpath] at hsize ⊢
    exact ⟨dir, find_rooted hdir hnode hsize⟩

end Disk

end IntLang
