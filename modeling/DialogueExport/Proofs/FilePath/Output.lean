import DialogueExport.Inputs
import Mathlib.Data.List.Induction

/-!
# Where the table of an input goes

A path with a file name is its directory with that name behind it, whatever slashes and idle pieces stand
around the name (`components_eq_concat`).  The path with another file name is the same directory with the
other name (`components_withFileName`), so the table of an input stands beside it.  Since a stem and an
extension give the name back (`eq_append_of_cutName`), the name of the table tells the name of the input,
and it is the name of no input itself (`outputName_ne`).

Paths are compared by their components: two spellings of one path have the same, and so have their
tables.

Main statement: `outputs_apart`.
-/

namespace DialogueExport

namespace FilePath

open Text (split join)

variable {p : FilePath} {s base name new : List Char}

/-! ## 1. Components of a text -/

/-- The components that the pieces of a text are. -/
def pieceComponents (s : List Char) : List Component :=
  (split '/' s).filterMap Component.ofPiece?

/-- The components of a text.  The piece at its front may be idle, and be a component all the same. -/
def componentsOf (s : List Char) : List Component := headComponents s ++ pieceComponents s

@[simp] theorem ofPiece?_dot : Component.ofPiece? ['.'] = none := by decide

@[simp] theorem pieceComponents_nil : pieceComponents [] = [] := by decide

@[simp] theorem pieceComponents_append (s r : List Char) :
    pieceComponents (s ++ '/' :: r) = pieceComponents s ++ pieceComponents r := by
  simp only [pieceComponents, Text.split_append_cons, List.filterMap_append]

@[simp] theorem pieceComponents_slash (r : List Char) :
    pieceComponents ('/' :: r) = pieceComponents r := by
  simpa using pieceComponents_append [] r

theorem pieceComponents_join {ps : List (List Char)} (hne : ps ≠ []) (h : ∀ q ∈ ps, '/' ∉ q) :
    pieceComponents (join '/' ps) = ps.filterMap Component.ofPiece? := by
  rw [pieceComponents, Text.split_join hne h]

theorem head_append_drop (s : List Char) : head s ++ s.drop (head s).length = s := by
  unfold head
  split <;> rfl

/-- The front that is not divided holds no other piece than an idle one. -/
theorem filterMap_pieces (s : List Char) :
    (pieces s).filterMap Component.ofPiece? = pieceComponents s := by
  unfold pieces head
  split
  · exact (pieceComponents_slash _).symm
  · rfl
  · next r => exact (pieceComponents_append ['.'] r).symm
  · rfl

theorem components_eq (p : FilePath) : p.components = componentsOf p.text.toList := by
  rw [components, filterMap_pieces, componentsOf]

theorem headComponents_append (hs : s ≠ []) (r : List Char) :
    headComponents (s ++ '/' :: r) = headComponents s := by
  unfold headComponents head
  match s, hs with
  | [c], _ => grind
  | c :: d :: s, _ => grind

@[simp] theorem componentsOf_nil : componentsOf [] = [] := by decide

/-- What stands behind a slash is put behind the components in front of it. -/
theorem componentsOf_append (hs : s ≠ []) (r : List Char) :
    componentsOf (s ++ '/' :: r) = componentsOf s ++ pieceComponents r := by
  rw [componentsOf, headComponents_append hs, pieceComponents_append, componentsOf, List.append_assoc]

/-- A text that ends in a slash need not have anything in front of it. -/
theorem componentsOf_slash_append (s r : List Char) :
    componentsOf (s ++ '/' :: r) = componentsOf (s ++ ['/']) ++ pieceComponents r := by
  by_cases hs : s = []
  · subst hs
    simp [componentsOf, headComponents, head]
  · simp [componentsOf_append hs]

theorem componentsOf_head (s : List Char) : componentsOf (head s) = headComponents s := by
  unfold headComponents head
  split <;> decide

/-! ## 2. The directory and the name -/

/-- A text that is the name of something. -/
def IsName (name : List Char) : Prop :=
  '/' ∉ name ∧ Component.ofPiece? name = some (.normal name)

theorem IsName.pieceComponents_eq (h : IsName name) : pieceComponents name = [.normal name] := by
  simp [pieceComponents, Text.split_of_not_mem h.1, h.2]

theorem IsName.headComponents_eq (h : IsName name) : headComponents name = [] := by
  obtain ⟨hslash, hpiece⟩ := h
  unfold headComponents head
  split
  · simp at hslash
  · simp at hpiece
  · simp at hslash
  · rfl

/-- A name put behind a text is put behind its components, with a slash between them or without. -/
theorem IsName.componentsOf_append (h : IsName name) (base : List Char) :
    componentsOf (append base name) = componentsOf base ++ [.normal name] := by
  rw [append]
  split
  · next hb =>
    rcases hb with rfl | hb
    · rw [componentsOf_nil, List.nil_append, componentsOf, h.headComponents_eq, h.pieceComponents_eq]
    · obtain ⟨b, rfl⟩ := List.getLast?_eq_some_iff.mp hb
      rw [List.append_assoc, List.singleton_append, componentsOf_slash_append, h.pieceComponents_eq]
  · next hb =>
    rw [FilePath.componentsOf_append (fun e => hb (Or.inl e)), h.pieceComponents_eq]

theorem ofPiece?_of_isIdle {piece : List Char} (h : isIdle piece) : Component.ofPiece? piece = none := by
  rw [Component.ofPiece?, if_pos h]

/-- Of the pieces behind a directory only one is a component. -/
theorem exists_eq_append_of_getLast? {pieces : List (List Char)} {c : Component}
    (h : (pieces.filterMap Component.ofPiece?).getLast? = some c) :
    ∃ tail : List (List Char), tail.filterMap Component.ofPiece? = [c] ∧
      pieces = (((pieces.reverse.dropWhile isIdle).drop 1).dropWhile isIdle).reverse ++ tail := by
  induction pieces using List.reverseRecOn with
  | nil => simp at h
  | append_singleton pieces q ih =>
    by_cases hq : isIdle q
    · simp only [List.filterMap_append, List.filterMap_cons, ofPiece?_of_isIdle hq, List.filterMap_nil,
        List.append_nil] at h
      obtain ⟨tail, htail, hpieces⟩ := ih h
      refine ⟨tail ++ [q], by simp [htail, ofPiece?_of_isIdle hq], ?_⟩
      rw [List.reverse_append, List.reverse_singleton, List.singleton_append, List.dropWhile_cons_of_pos hq,
        ← List.append_assoc, ← hpieces]
    · have hc : Component.ofPiece? q = some c := by
        have hsome : ∃ c', Component.ofPiece? q = some c' := by
          rw [Component.ofPiece?, if_neg hq]
          split <;> exact ⟨_, rfl⟩
        obtain ⟨c', hc'⟩ := hsome
        simpa [hc'] using h
      have hidle : (pieces.reverse.takeWhile isIdle).reverse.filterMap Component.ofPiece? = [] :=
        List.filterMap_eq_nil_iff.mpr fun x hx =>
          ofPiece?_of_isIdle (List.all_eq_true.mp List.all_takeWhile x (List.mem_reverse.mp hx))
      refine ⟨(pieces.reverse.takeWhile isIdle).reverse ++ [q], by simp [hidle, hc], ?_⟩
      rw [List.reverse_append, List.reverse_singleton, List.singleton_append,
        List.dropWhile_cons_of_neg hq, List.drop_one, List.tail_cons, ← List.append_assoc,
        ← List.reverse_append, List.takeWhile_append_dropWhile, List.reverse_reverse]

/-- The directory of a path with a last component is the path without it. -/
theorem componentsOf_directoryText {c : Component}
    (h : (pieceComponents s).getLast? = some c) :
    componentsOf s = componentsOf (directoryText s) ++ [c] := by
  rw [← filterMap_pieces] at h
  obtain ⟨tail, htail, hpieces⟩ := exists_eq_append_of_getLast? h
  have hdir : directoryText s = head s ++ join '/'
      ((((pieces s).reverse.dropWhile isIdle).drop 1).dropWhile isIdle).reverse := rfl
  generalize ((((pieces s).reverse.dropWhile isIdle).drop 1).dropWhile isIdle).reverse = before at *
  have htail' : tail ≠ [] := by rintro rfl; simp at htail
  by_cases hb : before = []
  · subst hb
    rw [hdir, join, List.append_nil, componentsOf_head, componentsOf, ← filterMap_pieces, hpieces,
      List.nil_append, htail]
  · have hslash : ∀ q ∈ tail, '/' ∉ q := fun q hq =>
      Text.not_mem_of_mem_split (s := s.drop (head s).length) (by
        rw [← pieces, hpieces]
        exact List.mem_append_right before hq)
    have hs : s = directoryText s ++ '/' :: join '/' tail := by
      rw [hdir, List.append_assoc, ← Text.join_append '/' hb htail', ← hpieces, pieces,
        Text.join_split, head_append_drop]
    have hne : directoryText s ≠ [] := by
      intro hnil
      have hhead : head s = ['/'] := by rw [hs, hnil]; rfl
      rw [hdir, hhead] at hnil
      cases hnil
    calc componentsOf s
        = componentsOf (directoryText s ++ '/' :: join '/' tail) := by rw [← hs]
      _ = componentsOf (directoryText s) ++ [c] := by
          rw [componentsOf_append hne, pieceComponents_join htail' hslash, htail]

/-- The components of what stands in front of the file name. -/
def directory (p : FilePath) : List Component := componentsOf (directoryText p.text.toList)

/-- A file name is the last piece that is a component: the front of a path is no name. -/
theorem getLast?_pieceComponents (h : p.fileName? = some name) :
    (pieceComponents p.text.toList).getLast? = some (.normal name) := by
  have hlast : p.components.getLast? = some (.normal name) := by
    unfold fileName? at h
    split at h
    · next n hn => rw [hn, Option.some.inj h]
    · cases h
  rw [components_eq, componentsOf, List.getLast?_append] at hlast
  cases hp : (pieceComponents p.text.toList).getLast? with
  | some c => simpa [hp] using hlast
  | none =>
    rw [hp, Option.none_or] at hlast
    unfold headComponents at hlast
    grind

/-- A path that ends in a file name is its directory with that name behind it. -/
theorem components_eq_concat (h : p.fileName? = some name) :
    p.components = p.directory ++ [.normal name] := by
  rw [components_eq, directory, componentsOf_directoryText (getLast?_pieceComponents h)]

theorem isName_of_fileName? (h : p.fileName? = some name) : IsName name := by
  obtain ⟨piece, hpiece, hname⟩ :=
    List.mem_filterMap.mp (List.mem_of_getLast? (getLast?_pieceComponents h))
  obtain rfl : piece = name := by
    unfold Component.ofPiece? at hname
    grind
  exact ⟨Text.not_mem_of_mem_split hpiece, hname⟩

/-- With another file name a path stays in its directory. -/
theorem components_withFileName (h : p.fileName? = some name) (hnew : IsName new) :
    (p.withFileName new).components = p.directory ++ [.normal new] := by
  rw [components_eq, withFileName, h, Option.isSome_some, if_pos rfl, String.toList_ofList,
    hnew.componentsOf_append, directory]

/-! ## 3. Stem and extension -/

/-- A name is cut at its last dot. -/
theorem cutName_append (stem : List Char) {extension : List Char} (h : '.' ∉ extension) :
    cutName (stem ++ '.' :: extension) =
      if stem = [] then ('.' :: extension, none) else (stem, some extension) := by
  have hstem : (stem ++ '.' :: extension).take
      ((stem ++ '.' :: extension).length - extension.length - 1) = stem := by
    have hlen : (stem ++ '.' :: extension).length - extension.length - 1 = stem.length := by
      simp only [List.length_append, List.length_cons]
      omega
    rw [hlen, List.take_left]
  rw [cutName, Text.takeWhile_reverse_append stem h, List.reverse_reverse]
  simp only [hstem]
  by_cases hs : stem = [] <;> simp [hs]

/-- Stem and extension give the name back. -/
theorem eq_append_of_cutName {extension : List Char} (h : (cutName name).2 = some extension) :
    name = (cutName name).1 ++ '.' :: extension := by
  by_cases hdot : '.' ∈ name
  · obtain ⟨before, after, rfl, hafter⟩ := Text.exists_eq_append_cons_of_mem hdot
    have hcut := cutName_append before hafter
    rw [hcut] at h ⊢
    split at h
    · cases h
    · next hs => simp [hs, ← Option.some.inj h]
  · simp [cutName, hdot] at h

/-! ## 4. The table beside its input -/

variable {extension : List Char}

theorem fileName?_of_extension? (h : p.extension? = some extension) :
    p.fileName? = some (p.stem ++ '.' :: extension) := by
  obtain ⟨name, hname, hcut⟩ := Option.bind_eq_some_iff.mp h
  have hstem : p.stem = (cutName name).1 := by simp [stem, hname]
  rw [hname, hstem, ← eq_append_of_cutName hcut]

theorem components_of_extension? (h : p.extension? = some extension) :
    p.components = p.directory ++ [.normal (p.stem ++ '.' :: extension)] :=
  components_eq_concat (fileName?_of_extension? h)

theorem isName_outputName {stem : List Char} (h : '/' ∉ stem) : IsName (stem ++ outputSuffix) := by
  refine ⟨?_, ?_⟩
  · simp [h, outputSuffix]
  · have hne : ∀ other : List Char, other.length < 3 → stem ++ outputSuffix ≠ other := by
      rintro other hlen rfl
      simp only [outputSuffix, List.length_append, List.length_cons, List.length_nil] at hlen
      omega
    have hidle : isIdle (stem ++ outputSuffix) = false := by
      simp only [isIdle, hne [] (by decide), hne ['.'] (by decide), decide_false, Bool.or_self]
    rw [Component.ofPiece?, hidle, if_neg Bool.false_ne_true, if_neg (hne ['.', '.'] (by decide))]

/-- The table of an input stands beside it. -/
theorem components_outputFor (h : p.extension? = some extension) :
    p.outputFor.components = p.directory ++ [.normal (p.stem ++ outputSuffix)] := by
  have hname := fileName?_of_extension? h
  have hslash : '/' ∉ p.stem := fun hm =>
    (isName_of_fileName? hname).1 (List.mem_append_left ('.' :: extension) hm)
  exact components_withFileName hname (isName_outputName hslash)

/-- The name of a table is the name of no input. -/
theorem outputName_ne (stem other : List Char) :
    stem ++ outputSuffix ≠ other ++ '.' :: programExtension := by
  intro h
  have hlast := congrArg List.getLast? h
  simp [outputSuffix, programExtension, List.getLast?_append] at hlast

/-! ## 5. Tables and inputs are kept apart -/

variable {q : FilePath}

/-- What the extension of a table is. -/
def tableExtension : List Char := ['c', 's', 'v']

theorem fileName?_of_components {dir : List Component} (h : p.components = dir ++ [.normal name]) :
    p.fileName? = some name := by
  rw [fileName?, h, List.getLast?_concat]

/-- Two spellings of one path have one file name, and with it one stem and one extension. -/
theorem fileName?_eq (h : p.components = q.components) : p.fileName? = q.fileName? := by
  rw [fileName?, h, ← fileName?]

theorem stem_eq (h : p.components = q.components) : p.stem = q.stem := by
  rw [stem, fileName?_eq h, ← stem]

theorem extension?_eq (h : p.components = q.components) : p.extension? = q.extension? := by
  rw [extension?, fileName?_eq h, ← extension?]

theorem extension?_outputFor (h : p.extension? = some extension) :
    p.outputFor.extension? = some tableExtension := by
  have hsuffix : p.stem ++ outputSuffix =
      (p.stem ++ ['_', 'l', 'i', 'n', 'e', 's']) ++ '.' :: tableExtension := by
    rw [List.append_assoc]
    rfl
  rw [FilePath.extension?, fileName?_of_components (components_outputFor h), Option.bind_some, hsuffix,
    cutName_append _ (by decide), if_neg (by simp)]

/-- Inputs have one table exactly if they are one path. -/
theorem components_outputFor_eq_iff (hp : p.extension? = some extension)
    (hq : q.extension? = some extension) :
    p.outputFor.components = q.outputFor.components ↔ p.components = q.components := by
  have hin := components_of_extension? hp
  have hin' := components_of_extension? hq
  rw [components_outputFor hp, components_outputFor hq]
  constructor
  · intro h
    obtain ⟨hdir, hname⟩ := List.append_inj' h rfl
    have hstem : p.stem = q.stem :=
      List.append_cancel_right (Component.normal.inj (List.singleton_inj.mp hname))
    rw [hin, hin', hdir, hstem]
  · intro h
    have hstem := stem_eq h
    rw [hin, hin', hstem] at h
    rw [List.append_cancel_right h, hstem]

/-- No path that the check lets through has the extension of a table. -/
theorem extension?_of_checkInputs {fs : FileSystem} {inputs : List FilePath}
    (h : fs.checkInputs inputs = .ok ()) (hq : q ∈ inputs) : q.extension? = some programExtension :=
  (FileSystem.inputFault?_eq_none_iff.mp (FileSystem.checkInputs_eq_ok_iff.mp h q hq)).2

/-- **Tables and inputs are kept apart**, however the paths are spelled.  The path of the table is the
path of its input with the last component replaced, the stem and the extension of programs by the stem and
the suffix of tables.  Two inputs have one table only if they are one path.  The path of a table has an
extension of its own, so it is none of the paths that the check lets through. -/
theorem outputs_apart (h : p.extension? = some programExtension) :
    (∃ dir, p.components = dir ++ [.normal (p.stem ++ '.' :: programExtension)] ∧
      p.outputFor.components = dir ++ [.normal (p.stem ++ outputSuffix)]) ∧
    (∀ q : FilePath, q.extension? = some programExtension →
      (p.outputFor.components = q.outputFor.components ↔ p.components = q.components)) ∧
    p.outputFor.extension? = some tableExtension ∧
    ∀ (fs : FileSystem) (inputs : List FilePath), fs.checkInputs inputs = .ok () →
      ∀ q ∈ inputs, q.components ≠ p.outputFor.components := by
  refine ⟨⟨p.directory, components_of_extension? h, components_outputFor h⟩,
    fun q hq => components_outputFor_eq_iff h hq, extension?_outputFor h,
    fun fs inputs hin q hq heq => ?_⟩
  have hjson : q.extension? = some programExtension := extension?_of_checkInputs hin hq
  rw [extension?_eq heq, extension?_outputFor h] at hjson
  exact absurd hjson (by decide)

/-! Two spellings of one path, and a stem that has a dot and ends as the names of tables do. -/

namespace Example

theorem outputs_apart_pier :
    (⟨"sea//./pier.v2_lines.json/."⟩ : FilePath).extension? = some programExtension ∧
      (⟨"sea//./pier.v2_lines.json/."⟩ : FilePath).outputFor = ⟨"sea/pier.v2_lines_lines.csv"⟩ ∧
      (⟨"sea//./pier.v2_lines.json/."⟩ : FilePath).outputFor.components =
        (⟨"sea/pier.v2_lines.json"⟩ : FilePath).outputFor.components ∧
      (⟨"sea//./pier.v2_lines.json/."⟩ : FilePath).outputFor.components ≠
        (⟨"sea/pier.v2.json"⟩ : FilePath).outputFor.components := by
  have hext : (⟨"sea//./pier.v2_lines.json/."⟩ : FilePath).extension? = some programExtension := by
    decide +kernel
  obtain ⟨-, hone, -⟩ := outputs_apart hext
  refine ⟨hext, by decide +kernel, (hone _ (by decide +kernel)).mpr (by decide +kernel), ?_⟩
  exact fun heq => absurd ((hone _ (by decide +kernel)).mp heq) (by decide +kernel)

end Example

end FilePath

end DialogueExport
