import DialogueExport.Proofs.Json.Extent

/-!
# Reading a text and reading its tree

A reader goes over the text once and decides by the characters that it meets.  Here it is compared
with the plain way: first the tree, then the value in the tree.  `Reader.Finds value find` says that
the two agree: on any spelling, in front of any text, the reader gives what `find` gives on the
tree.  So what is read depends on the tree alone, and not on its layout.

Each way to build a reader has its counterpart on trees: `Tree.text?`, `Tree.nullable?`,
`Tree.elements?`, `Tree.entries?`, and for records `Shape.find?`, which fills a draft member by
member (`fill`) or field by field (`place`).  The fields of a record are readers themselves, and
`Reader.find?` is what they find.
-/

namespace DialogueExport.Json

variable {α β σ : Type}

/-! ## 1. The judgement -/

/-- On trees the reader does what `find` does. -/
structure Reader.Finds (value : Reader α) (find : Tree → Option α) : Prop where
  run_gap : ∀ {w}, Gap w → ∀ s, value.run (w ++ s) = value.run s
  run_spelling : ∀ {t s}, Spells t s → ∀ rest,
    (value.run (s ++ rest)).toOption = (find t).map fun a => (a, rest)

/-- What the reader finds in a tree: what it reads when the tree is written without white space. -/
def Reader.find? (value : Reader α) (t : Tree) : Option α :=
  (value.run t.compact).toOption.map Prod.fst

theorem toOption_map (x : Except Fault α) (f : α → β) : (x.map f).toOption = x.toOption.map f := by
  cases x <;> rfl

namespace Reader

theorem Finds.find?_eq {value : Reader α} {find : Tree → Option α} (h : value.Finds find)
    (t : Tree) : value.find? t = find t := by
  have hrun := h.run_spelling (spells_compact t) []
  rw [List.append_nil] at hrun
  rw [Reader.find?, hrun]
  cases find t <;> rfl

theorem Finds.congr {value : Reader α} {find find' : Tree → Option α} (h : value.Finds find)
    (heq : ∀ t, find t = find' t) : value.Finds find' :=
  (funext heq : find = find') ▸ h

/-- Whatever the counterpart is, it is what the reader finds. -/
theorem Finds.finds_find? {value : Reader α} {find : Tree → Option α} (h : value.Finds find) :
    value.Finds value.find? :=
  h.congr fun t => (h.find?_eq t).symm

theorem Finds.run_of_some {value : Reader α} {find : Tree → Option α} (h : value.Finds find)
    {t : Tree} {s : List Char} (hs : Spells t s) {a : α} (ha : find t = some a) (rest : List Char) :
    value.run (s ++ rest) = .ok (a, rest) := by
  have hrun := h.run_spelling hs rest
  rw [ha] at hrun
  exact toOption_eq_some_iff.mp hrun

theorem Finds.run_of_none {value : Reader α} {find : Tree → Option α} (h : value.Finds find)
    {t : Tree} {s : List Char} (hs : Spells t s) (ht : find t = none) (rest : List Char) :
    ∃ f, value.run (s ++ rest) = .error f := by
  have hrun := h.run_spelling hs rest
  rw [ht] at hrun
  exact toOption_eq_none_iff.mp hrun

/-- A document is read as what is found in its tree. -/
theorem Finds.decode_eq_ok_iff {value : Reader α} {find : Tree → Option α} (h : value.Finds find)
    {t : Tree} {text : String} (ht : Spelled t text) {a : α} :
    value.decode text = .ok a ↔ find t = some a := by
  obtain ⟨v, s, w, htext, hv, hs, hw⟩ := ht
  have hrun : (value.run text.toList).toOption = (find t).map fun a => (a, w) := by
    rw [htext, h.run_gap hv, h.run_spelling hs]
  have hend : skipSpace w = [] := by
    rw [← List.append_nil w, skipSpace_append hw, skipSpace_nil]
  rw [Reader.decode_eq_ok_iff]
  constructor
  · rintro ⟨rest, ha, -⟩
    rw [toOption_eq_some_iff.mpr ha] at hrun
    obtain ⟨b, hb, heq⟩ := Option.map_eq_some_iff.mp hrun.symm
    cases heq
    exact hb
  · intro ha
    rw [ha] at hrun
    exact ⟨w, toOption_eq_some_iff.mp hrun, hend⟩

end Reader

/-! ## 2. Readers without brackets of their own -/

/-- The text of a string. -/
def Tree.text? : Tree → Option String
  | .text b => b.text?
  | _ => none

/-- Whether the tree is the literal `null`. -/
def Tree.isNull : Tree → Bool
  | .word w => w.chars == ['n', 'u', 'l', 'l']
  | _ => false

/-- What may be null, or be something that `find` finds. -/
def Tree.nullable? (find : Tree → Option α) (t : Tree) : Option (Option α) :=
  if t.isNull then some none else (find t).map some

/-- Only `null` is nothing. -/
theorem nullable?_eq_some_none_iff {find : Tree → Option α} {t : Tree} :
    t.nullable? find = some none ↔ t = Tree.null := by
  have hnull : t.isNull = true ↔ t = Tree.null := by
    cases t with
    | word w =>
      obtain ⟨chars, valid⟩ := w
      simp [Tree.isNull, Tree.null]
    | text | list | object => simp [Tree.isNull, Tree.null]
  rw [← hnull, Tree.nullable?]
  cases t.isNull <;> simp

/-- A reader that looks for one character finds nothing in a tree that opens with another. -/
theorem Spells.toOption_of_misfit {run : List Char → Except Fault β} {d : Char}
    (hrun : ∀ {c}, isSpace c = false → c ≠ d → ∀ r, ∃ f, run (c :: r) = .error f) {t : Tree}
    {s : List Char} (h : Spells t s) (rest : List Char) (hd : ¬ t.opensWith d) :
    (run (s ++ rest)).toOption = none := by
  obtain ⟨c, r, rfl, hc⟩ := h.exists_cons
  have hne : c ≠ d := by
    rintro rfl
    exact hd hc
  exact toOption_eq_none_iff.mpr (hrun hc.isSpace hne (r ++ rest))

theorem readString_error {c : Char} (hspace : isSpace c = false) (hquote : c ≠ '"')
    (r : List Char) : ∃ f, readString (c :: r) = .error f := by
  rw [readString, skipSpace_cons hspace]
  exact ⟨_, if_neg hquote⟩

theorem readString_gap {w : List Char} (hw : Gap w) (s : List Char) :
    readString (w ++ s) = readString s := by
  rw [readString, readString, skipSpace_append hw]

namespace Reader

theorem finds_text : Reader.text.Finds Tree.text? where
  run_gap hw s := readString_gap hw s
  run_spelling {t s} h rest := by
    rw [run_text]
    have hmiss := h.toOption_of_misfit readString_error rest
    cases h with
    | word | list | object => exact hmiss (by rw [Tree.opensWith]; decide)
    | text b =>
      rw [List.cons_append, List.append_assoc, List.singleton_append, readString,
        skipSpace_cons (by decide)]
      simp only [if_true, toOption_map, toOption_readText, Option.map_map, Tree.text?]
      congr 1
      funext t
      rw [Function.comp_apply, String.ofList_toList]

/-- What does not start as `null` does is left to the reader of the value. -/
theorem readNullable_of_ne (value : Reader α) {c : Char} (hspace : isSpace c = false)
    (hn : c ≠ 'n') (r : List Char) :
    readNullable value (c :: r) = (value.run (c :: r)).map fun (a, rest) => (some a, rest) := by
  rw [readNullable, skipSpace_cons hspace]
  split
  · next heq => exact absurd (List.cons.inj heq).1 hn
  · rfl

theorem Finds.nullable {value : Reader α} {find : Tree → Option α} (h : value.Finds find) :
    (Reader.nullable value).Finds (Tree.nullable? find) where
  run_gap hw s := by
    rw [run_nullable, readNullable, readNullable, skipSpace_append hw, h.run_gap hw]
  run_spelling {t s} hs rest := by
    rw [run_nullable]
    have hvalue : ∀ c r, s = c :: r → isSpace c = false → c ≠ 'n' → t.isNull = false →
        (readNullable value (s ++ rest)).toOption =
          (t.nullable? find).map fun a => (a, rest) := by
      rintro c r rfl hspace hn hnull
      rw [List.cons_append, readNullable_of_ne value hspace hn, toOption_map, ← List.cons_append,
        h.run_spelling hs, Tree.nullable?, hnull, if_neg (by decide), Option.map_map,
        Option.map_map]
      rfl
    cases hs with
    | word w =>
      obtain ⟨c, r, hw, hc⟩ := w.valid.exists_cons
      by_cases hn : c = 'n'
      · have hword : IsWord ('n' :: r) := by rw [← hn, ← hw]; exact w.valid
        have hnull : w.chars = ['n', 'u', 'l', 'l'] := by rw [hw, hn, hword.eq_null]
        rw [Tree.nullable?, Tree.isNull, hnull, readNullable, List.cons_append,
          skipSpace_cons (by decide)]
        have hread : readLiteral ['u', 'l', 'l'] ('u' :: 'l' :: 'l' :: rest) = .ok rest :=
          readLiteral_append ['u', 'l', 'l'] rest
        simp only [List.cons_append, List.nil_append, hread]
        rfl
      · refine hvalue c r hw (isSpace_of_startsWord hc) hn ?_
        rw [Tree.isNull, hw]
        simp [hn]
    | text | list | object => exact hvalue _ _ rfl (by decide) (by decide) rfl

theorem Finds.map {value : Reader α} {find : Tree → Option α} (h : value.Finds find)
    (f : α → β) : (value.map f).Finds fun t => (find t).map f where
  run_gap hw s := by rw [run_map, readMapped, readMapped, h.run_gap hw]
  run_spelling hs rest := by
    rw [run_map, readMapped, toOption_map, h.run_spelling hs, Option.map_map, Option.map_map]
    rfl

theorem Finds.check {value : Reader α} {find : Tree → Option α} (h : value.Finds find)
    (f : α → Except String β) :
    (value.check f).Finds fun t => (find t).bind fun a => (f a).toOption where
  run_gap {w} hw s := by
    change readChecked f value (w ++ s) = readChecked f value s
    rw [readChecked, readChecked, h.run_gap hw]
  run_spelling {t s} hs rest := by
    change (readChecked f value (s ++ rest)).toOption = _
    rw [readChecked]
    cases ht : find t with
    | none =>
      obtain ⟨fault, hfault⟩ := h.run_of_none hs ht rest
      rw [hfault]
      rfl
    | some a =>
      rw [h.run_of_some hs ht rest]
      cases hf : f a with
      | error why => simp [hf, Except.toOption]
      | ok b => simp [hf, Except.toOption]

end Reader

/-! ## 3. Brackets -/

/-- The spelling of an element is found behind what separates it from the one before. -/
theorem nextElement_of_spelling {t : Tree} {p v w : List Char} (hp : Spells t p) (hv : Gap v)
    (hw : Gap w) (first : Bool) (rest : List Char) :
    nextElement first (v ++ (separator first ++ (w ++ (p ++ rest)))) = .ok (some (p ++ rest)) := by
  obtain ⟨c, r, rfl, hc⟩ := hp.exists_cons
  exact nextElement_of_cons hv hw hc.isSpace hc.ne_close first (r ++ rest)

theorem closeList_of_spelling {t : Tree} {p v w : List Char} (hp : Spells t p) (hv : Gap v)
    (hw : Gap w) (first : Bool) (rest : List Char) :
    ∃ f u, closeList (v ++ (separator first ++ (w ++ (p ++ rest)))) = .refused f u := by
  obtain ⟨c, r, rfl, hc⟩ := hp.exists_cons
  exact closeList_of_cons hv hw hc.isSpace hc.ne_close first (r ++ rest)

theorem toOption_enclosed_error (close : List Char → Closing) (f : Fault) :
    (enclosed close (.error f : Except Fault (α × List Char))).toOption = none := by
  cases f <;> rfl

theorem toOption_enclosed_map (close : List Char → Closing) (x : Except Fault (α × List Char))
    (f : α → β) :
    (enclosed close (x.map fun (a, rest) => (f a, rest))).toOption =
      (enclosed close x).toOption.map fun (a, rest) => (f a, rest) := by
  cases x with
  | error fault => rw [toOption_enclosed_error]; exact toOption_enclosed_error close fault
  | ok p =>
    obtain ⟨a, s⟩ := p
    simp only [enclosed, Except.map]
    cases close s <;> rfl

/-- What is finished behind the last part is finished behind the closing bracket as well. -/
theorem toOption_enclosed_bind (close : List Char → Closing) (x : Except Fault (α × List Char))
    (finish : α → Option β) (g : α × List Char → Except Fault (β × List Char))
    (hg : ∀ p, (g p).toOption = (finish p.1).map fun b => (b, p.2)) :
    (enclosed close (x >>= g)).toOption =
      (enclosed close x).toOption.bind fun p => (finish p.1).map fun b => (b, p.2) := by
  cases x with
  | error fault => rw [toOption_enclosed_error]; exact toOption_enclosed_error close fault
  | ok p =>
    obtain ⟨a, s⟩ := p
    change (enclosed close (g (a, s))).toOption = _
    have hga := hg (a, s)
    cases hfin : finish a with
    | none =>
      rw [hfin] at hga
      obtain ⟨fault, hfault⟩ := toOption_eq_none_iff.mp hga
      rw [hfault, toOption_enclosed_error, enclosed]
      cases close s with
      | closed rest => simp [Except.toOption, hfin]
      | refused fault rest => rfl
    | some b =>
      rw [hfin] at hga
      rw [toOption_eq_some_iff.mp hga, enclosed, enclosed]
      cases close s with
      | closed rest => simp [Except.toOption, hfin]
      | refused fault rest => rfl

/-! ## 4. Lists and tables -/

/-- The elements of a list, if `find` finds each of them. -/
def Tree.elements? (find : Tree → Option α) : Tree → Option (List α)
  | .list ts => ts.mapM find
  | _ => none

/-- A member of a table, if its key is a text and `find` finds its value. -/
def memberOf? (find : Tree → Option α) (m : Body × Tree) : Option (String × α) :=
  m.1.text?.bind fun key => (find m.2).map fun a => (key, a)

/-- The members of a table. -/
def Tree.entries? (find : Tree → Option α) : Tree → Option (List (String × α))
  | .object ms => ms.mapM (memberOf? find)
  | _ => none

theorem enclosed_readElements {value : Reader α} {find : Tree → Option α} (hv : value.Finds find)
    {first : Bool} {ts : List Tree} {s : List Char} (h : Parts Spells ']' first ts s)
    (rest : List Char) :
    (enclosed closeList (readElements value first (s ++ rest))).toOption =
      (ts.mapM find).map fun l => (l, rest) := by
  induction h with
  | @nil first w gap =>
    rw [List.append_assoc, List.singleton_append,
      readElements_of_end (nextElement_of_close first gap rest), enclosed, closeList_gap gap]
    rfl
  | @cons first t ts v w p s before behind head tail ih =>
    simp only [List.append_assoc]
    have hnext := nextElement_of_spelling head before behind first (s ++ rest)
    rw [List.mapM_cons]
    cases ht : find t with
    | none =>
      obtain ⟨f, hf⟩ := hv.run_of_none head ht (s ++ rest)
      rw [readElements_eq, hnext]
      simp only [hf]
      exact toOption_enclosed_error closeList f
    | some a =>
      rw [readElements_of_next hnext (hv.run_of_some head ht _), toOption_enclosed_map, ih]
      cases ts.mapM find <;> rfl

theorem readText_of_text? {b : Body} {t : String} (h : b.text? = some t) (rest : List Char) :
    readText (b.chars ++ '"' :: rest) = .ok (t.toList, rest) := by
  have hread := toOption_readText b rest
  rw [h] at hread
  exact toOption_eq_some_iff.mp hread

theorem readText_of_text?_eq_none {b : Body} (h : b.text? = none) (rest : List Char) :
    ∃ f, readText (b.chars ++ '"' :: rest) = .error f := by
  have hread := toOption_readText b rest
  rw [h] at hread
  exact toOption_eq_none_iff.mp hread

theorem enclosed_readEntries {value : Reader α} {find : Tree → Option α} (hv : value.Finds find)
    {first : Bool} {ms : List (Body × Tree)} {s : List Char}
    (h : Parts (Member Spells) '\x7d' first ms s) (rest : List Char) :
    (enclosed closeObject (readEntries value first (s ++ rest))).toOption =
      (ms.mapM (memberOf? find)).map fun l => (l, rest) := by
  induction h with
  | @nil first w gap =>
    rw [List.append_assoc, List.singleton_append,
      readEntries_of_end (nextKey_of_close first gap rest), enclosed, closeObject_gap gap]
    rfl
  | @cons first m ms v w p s before behind head tail ih =>
    obtain @⟨b, t, v', w', p, hv', hw', hp⟩ := head
    simp only [List.append_assoc, List.cons_append]
    have hnext := nextKey_of_cons before behind first
      (b.chars ++ '"' :: (v' ++ ':' :: (w' ++ (p ++ (s ++ rest)))))
    rw [List.mapM_cons, memberOf?]
    cases hb : b.text? with
    | none =>
      obtain ⟨f, hf⟩ := readText_of_text?_eq_none hb (v' ++ ':' :: (w' ++ (p ++ (s ++ rest))))
      rw [readEntries_eq, hnext]
      simp only [hf]
      exact toOption_enclosed_error closeObject f
    | some key =>
      have hkey := readText_of_text? hb (v' ++ ':' :: (w' ++ (p ++ (s ++ rest))))
      have hcolon := readColon_gap hv' (w' ++ (p ++ (s ++ rest)))
      have hgap := hv.run_gap hw' (p ++ (s ++ rest))
      cases ht : find t with
      | none =>
        obtain ⟨f, hf⟩ := hv.run_of_none hp ht (s ++ rest)
        rw [readEntries_eq, hnext]
        simp only [hkey, hcolon, hgap, hf, bind, Except.bind]
        exact toOption_enclosed_error closeObject f
      | some a =>
        have hrun := hgap.trans (hv.run_of_some hp ht (s ++ rest))
        rw [readEntries_of_next hnext hkey hcolon hrun, toOption_enclosed_map, ih,
          String.ofList_toList]
        cases ms.mapM (memberOf? find) <;> rfl

theorem readList_error (value : Reader α) {c : Char} (hspace : isSpace c = false) (hc : c ≠ '[')
    (r : List Char) : ∃ f, readList value (c :: r) = .error f := by
  rw [readList, skipSpace_cons hspace]
  exact ⟨_, if_neg hc⟩

theorem readObject_error (value : Reader α) {c : Char} (hspace : isSpace c = false)
    (hc : c ≠ '\x7b') (r : List Char) : ∃ f, readObject value (c :: r) = .error f := by
  rw [readObject, skipSpace_cons hspace]
  exact ⟨_, if_neg hc⟩

namespace Reader

theorem Finds.list {value : Reader α} {find : Tree → Option α} (h : value.Finds find) :
    (Reader.list value).Finds (Tree.elements? find) where
  run_gap {w} hw s := by
    change readList value (w ++ s) = readList value s
    rw [readList, readList, skipSpace_append hw]
  run_spelling {t s} hs rest := by
    rw [run_list]
    have hmiss := hs.toOption_of_misfit (readList_error value) rest
    cases hs with
    | word | text | object => exact hmiss (by rw [Tree.opensWith]; decide)
    | list parts =>
      rw [List.cons_append, readList, skipSpace_cons (by decide)]
      exact enclosed_readElements h parts rest

theorem Finds.entries {value : Reader α} {find : Tree → Option α} (h : value.Finds find) :
    (Reader.entries value).Finds (Tree.entries? find) where
  run_gap {w} hw s := by
    change readObject value (w ++ s) = readObject value s
    rw [readObject, readObject, skipSpace_append hw]
  run_spelling {t s} hs rest := by
    rw [run_entries]
    have hmiss := hs.toOption_of_misfit (readObject_error value) rest
    cases hs with
    | word | text | list => exact hmiss (by rw [Tree.opensWith]; decide)
    | object parts =>
      rw [List.cons_append, readObject, skipSpace_cons (by decide)]
      exact enclosed_readEntries h parts rest

end Reader

/-! ## 5. Records -/

/-- What becomes of a draft at a member: a field of the type that is there already, or whose value
is no value of it, spoils the record, and other members change nothing. -/
def put (fields : List (RecordField σ)) (draft : σ) (m : Body × Tree) : Option σ :=
  m.1.text?.bind fun key =>
    match fields.find? fun f => f.name = key with
    | some field =>
      if field.isSet draft then none else (field.read.find? m.2).map fun write => write draft
    | none => some draft

/-- The draft behind all members. -/
def fill (fields : List (RecordField σ)) (draft : σ) (ms : List (Body × Tree)) : Option σ :=
  ms.foldlM (put fields) draft

/-- The draft behind the elements of a list, which are the first fields of the type. -/
def place : List (RecordField σ) → σ → List Tree → Option σ
  | _, draft, [] => some draft
  | [], _, _ :: _ => none
  | field :: fields, draft, t :: ts =>
    (field.read.find? t).bind fun write => place fields (write draft) ts

/-- The record that a tree holds. -/
def Shape.find? (shape : Shape σ α) : Tree → Option α
  | .object ms => (fill shape.fields shape.start ms).bind fun draft => (shape.finish draft).toOption
  | .list ts => (place shape.fields shape.start ts).bind fun draft => (shape.finish draft).toOption
  | _ => none

theorem fill_cons (fields : List (RecordField σ)) (draft : σ) (m : Body × Tree)
    (ms : List (Body × Tree)) :
    fill fields draft (m :: ms) = (put fields draft m).bind fun draft => fill fields draft ms := by
  rw [fill, List.foldlM_cons]
  rfl

/-- The field writes this into a draft, for some value. -/
def RecordField.Writes (f : RecordField σ) (w : σ → σ) : Prop := ∃ t, f.read.find? t = some w

section Drafts

variable {motive : σ → Prop} {fields : List (RecordField σ)}
  (hwrite : ∀ f ∈ fields, ∀ w, f.Writes w → ∀ d, motive d → motive (w d))

include hwrite

theorem put_induct {d e : σ} {m : Body × Tree} (hd : motive d) (h : put fields d m = some e) :
    motive e := by
  obtain ⟨key, -, h⟩ := Option.bind_eq_some_iff.mp h
  split at h
  · next f hf =>
    split at h
    · cases h
    · obtain ⟨w, hw, rfl⟩ := Option.map_eq_some_iff.mp h
      exact hwrite f (List.mem_of_find?_eq_some hf) w ⟨m.2, hw⟩ d hd
  · cases h
    exact hd

theorem fill_induct : ∀ {ms : List (Body × Tree)} {d e : σ}, motive d →
    fill fields d ms = some e → motive e
  | [], d, e, hd, h => by
    cases h
    exact hd
  | m :: ms, d, e, hd, h => by
    rw [fill_cons, Option.bind_eq_some_iff] at h
    obtain ⟨d', hput, h⟩ := h
    exact fill_induct (put_induct hwrite hd hput) h

theorem place_induct : ∀ {ts : List Tree} {d e : σ}, motive d → place fields d ts = some e →
    motive e := by
  induction fields with
  | nil =>
    intro ts d e hd h
    cases ts with
    | nil =>
      cases h
      exact hd
    | cons => cases h
  | cons f fields ih =>
    intro ts d e hd h
    cases ts with
    | nil =>
      cases h
      exact hd
    | cons t ts =>
      obtain ⟨w, hw, h⟩ := Option.bind_eq_some_iff.mp h
      have htail := fun g hg => hwrite g (List.mem_cons_of_mem f hg)
      exact ih htail (hwrite f List.mem_cons_self w ⟨t, hw⟩ d hd) h

end Drafts

/-- What holds at the start and is kept by every field holds of the draft that is finished. -/
theorem Shape.exists_draft {shape : Shape σ α} {motive : σ → Prop} (hstart : motive shape.start)
    (hwrite : ∀ f ∈ shape.fields, ∀ w, f.Writes w → ∀ d, motive d → motive (w d)) {t : Tree}
    {a : α} (h : shape.find? t = some a) : ∃ d, motive d ∧ shape.finish d = .ok a := by
  cases t with
  | word | text => cases h
  | list ts =>
    obtain ⟨d, hd, ha⟩ := Option.bind_eq_some_iff.mp h
    exact ⟨d, place_induct hwrite hstart hd, toOption_eq_some_iff.mp ha⟩
  | object ms =>
    obtain ⟨d, hd, ha⟩ := Option.bind_eq_some_iff.mp h
    exact ⟨d, fill_induct hwrite hstart hd, toOption_eq_some_iff.mp ha⟩

theorem toOption_readMember {fields : List (RecordField σ)}
    (hfields : ∀ f ∈ fields, f.read.Finds f.read.find?) (draft : σ) {b : Body} {key : String}
    (hb : b.text? = some key) {t : Tree} {v w p : List Char} (hv : Gap v) (hw : Gap w)
    (hp : Spells t p) {rest : List Char} (hrest : Apart rest) :
    (readMember fields draft key (v ++ ':' :: (w ++ (p ++ rest)))).toOption =
      (put fields draft (b, t)).map fun draft => (draft, rest) := by
  have hcolon := readColon_gap hv (w ++ (p ++ rest))
  rw [readMember, put, hb, Option.bind_some]
  cases hfind : fields.find? fun f => f.name = key with
  | some field =>
    dsimp only
    have hread := hfields field (List.mem_of_find?_eq_some hfind)
    split
    · rfl
    rw [hcolon]
    simp only [bind, Except.bind, hread.run_gap hw]
    cases ht : field.read.find? t with
    | none =>
      obtain ⟨f, hf⟩ := hread.run_of_none hp ht rest
      rw [hf]
      rfl
    | some write =>
      rw [hread.run_of_some hp ht rest]
      rfl
  | none =>
    have hskip := skipValue_spelling hw hp fun _ _ => hrest
    simp only [bind, Except.bind, hcolon, hskip]
    rfl

theorem enclosed_readNamed {fields : List (RecordField σ)}
    (hfields : ∀ f ∈ fields, f.read.Finds f.read.find?) {first : Bool} {ms : List (Body × Tree)}
    {s : List Char} (h : Parts (Member Spells) '\x7d' first ms s) (rest : List Char) :
    ∀ draft, (enclosed closeObject (readNamed fields first draft (s ++ rest))).toOption =
      (fill fields draft ms).map fun draft => (draft, rest) := by
  induction h with
  | @nil first w gap =>
    intro draft
    rw [List.append_assoc, List.singleton_append,
      readNamed_of_end (nextKey_of_close first gap rest), enclosed, closeObject_gap gap]
    rfl
  | @cons first m ms v w p s before behind head tail ih =>
    intro draft
    obtain @⟨b, t, v', w', p, hv', hw', hp⟩ := head
    simp only [List.append_assoc, List.cons_append]
    rw [readNamed_eq, nextKey_of_cons before behind first, fill_cons]
    dsimp only
    cases hb : b.text? with
    | none =>
      obtain ⟨f, hf⟩ := readText_of_text?_eq_none hb (v' ++ ':' :: (w' ++ (p ++ (s ++ rest))))
      rw [hf, put, hb]
      exact toOption_enclosed_error closeObject f
    | some key =>
      rw [readText_of_text? hb]
      have hmember := toOption_readMember hfields draft hb hv' hw' hp
        (tail.apart (b := .object) rest)
      simp only [bind, Except.bind, String.ofList_toList]
      cases hput : put fields draft (b, t) with
      | none =>
        rw [hput] at hmember
        obtain ⟨f, hf⟩ := toOption_eq_none_iff.mp hmember
        rw [hf]
        exact toOption_enclosed_error closeObject f
      | some draft' =>
        rw [hput] at hmember
        rw [toOption_eq_some_iff.mp hmember]
        exact ih draft'

theorem readPlaced_of_close (fields : List (RecordField σ)) (first : Bool) (draft : σ)
    {w : List Char} (hw : Gap w) (rest : List Char) :
    readPlaced fields first draft (w ++ ']' :: rest) = .ok ((0, draft), w ++ ']' :: rest) := by
  cases fields with
  | nil => rfl
  | cons => rw [readPlaced, nextElement_of_close first hw rest]

theorem enclosed_readPlaced {first : Bool} {ts : List Tree} {s : List Char}
    (h : Parts Spells ']' first ts s) (rest : List Char) : ∀ (fields : List (RecordField σ)) draft,
      (∀ f ∈ fields, f.read.Finds f.read.find?) →
        (enclosed closeList (readPlaced fields first draft (s ++ rest))).toOption =
          (place fields draft ts).map fun draft => ((ts.length, draft), rest) := by
  induction h with
  | @nil first w gap =>
    intro fields draft _
    rw [List.append_assoc, List.singleton_append, readPlaced_of_close fields first draft gap rest,
      enclosed, closeList_gap gap]
    cases fields <;> rfl
  | @cons first t ts v w p s before behind head tail ih =>
    intro fields draft hfields
    simp only [List.append_assoc]
    cases fields with
    | nil =>
      obtain ⟨f, u, hrefused⟩ := closeList_of_spelling head before behind first (s ++ rest)
      rw [readPlaced, place, enclosed]
      simp only [hrefused]
      rfl
    | cons field fields =>
      have hread := hfields field List.mem_cons_self
      rw [readPlaced, nextElement_of_spelling head before behind first (s ++ rest), place]
      dsimp only
      cases ht : field.read.find? t with
      | none =>
        obtain ⟨f, hf⟩ := hread.run_of_none head ht (s ++ rest)
        rw [hf]
        exact toOption_enclosed_error closeList f
      | some write =>
        rw [hread.run_of_some head ht (s ++ rest)]
        have htail := ih fields (write draft) fun f hf => hfields f (List.mem_cons_of_mem field hf)
        have hmap := toOption_enclosed_map closeList
          (readPlaced fields false (write draft) (s ++ rest)) fun q => (q.1 + 1, q.2)
        refine hmap.trans ?_
        rw [htail, Option.bind_some]
        cases place fields (write draft) ts <;> rfl

theorem Shape.toOption_finishNamed (shape : Shape σ α) (draft : σ) (rest : List Char) :
    (shape.finishNamed draft rest).toOption =
      (shape.finish draft).toOption.map fun a => (a, rest) := by
  rw [Shape.finishNamed]
  cases shape.finish draft <;> rfl

theorem Shape.toOption_finishPlaced (shape : Shape σ α) (n : Nat) (draft : σ) (rest : List Char) :
    (shape.finishPlaced n draft rest).toOption =
      (shape.finish draft).toOption.map fun a => (a, rest) := by
  rw [Shape.finishPlaced]
  cases shape.finish draft <;> rfl

/-- **A record is read as its tree says.** -/
theorem Reader.finds_record {shape : Shape σ α}
    (hfields : ∀ f ∈ shape.fields, f.read.Finds f.read.find?) :
    (Reader.record shape).Finds shape.find? where
  run_gap {w} hw s := by
    rw [run_record, Shape.read, Shape.read, skipSpace_append hw]
  run_spelling {t s} hs rest := by
    rw [run_record, Shape.read]
    cases hs with
    | word w =>
      obtain ⟨c, r, hw, hc⟩ := w.valid.exists_cons
      have hobject : c ≠ '\x7b' := ne_of_startsWord hc (by decide)
      have hlist : c ≠ '[' := ne_of_startsWord hc (by decide)
      rw [hw, List.cons_append, skipSpace_cons (isSpace_of_startsWord hc)]
      simp only [hobject, hlist, if_false]
      rfl
    | text b =>
      rw [List.cons_append, skipSpace_cons (by decide)]
      rfl
    | @object ms s parts =>
      rw [List.cons_append, skipSpace_cons (by decide)]
      have hbind := toOption_enclosed_bind closeObject
        (readNamed shape.fields true shape.start (s ++ rest)) (fun d => (shape.finish d).toOption)
        (fun p => shape.finishNamed p.1 p.2) fun p => shape.toOption_finishNamed p.1 p.2
      refine hbind.trans ?_
      rw [enclosed_readNamed hfields parts rest, Shape.find?]
      cases fill shape.fields shape.start ms <;> rfl
    | @list ts s parts =>
      rw [List.cons_append, skipSpace_cons (by decide)]
      have hbind := toOption_enclosed_bind closeList
        (readPlaced shape.fields true shape.start (s ++ rest))
        (fun q => (shape.finish q.2).toOption) (fun p => shape.finishPlaced p.1.1 p.1.2 p.2)
        fun p => shape.toOption_finishPlaced p.1.1 p.1.2 p.2
      refine hbind.trans ?_
      rw [enclosed_readPlaced parts rest shape.fields shape.start hfields, Shape.find?]
      cases place shape.fields shape.start ts <;> rfl

namespace Reader

theorem closed_finds : Reader.Closed fun {_} value => value.Finds value.find? where
  text := finds_text.finds_find?
  nullable h := h.nullable.finds_find?
  map f _ h := (h.map f).finds_find?
  check f _ h := (h.check f).finds_find?
  list h := h.list.finds_find?
  entries h := h.entries.finds_find?
  record h := (finds_record h).finds_find?

end Reader

end DialogueExport.Json
