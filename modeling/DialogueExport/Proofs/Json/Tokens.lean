import Mathlib.Data.List.TakeWhile
import DialogueExport.Proofs.Json.Grammar

/-!
# Tokens and their readers

What the readers of tokens take is what the grammar calls a token, no more and no less.

* Strings: `skipText` takes the bodies of the grammar (`skipText_body`, `exists_body_of_skipText`).
  A string that is read is taken as far as if it were passed over (`skipText_of_readText`), and what
  it is depends on nothing behind its quote (`toOption_readText`).
* Numbers end where no character follows that could belong to them (`Apart`), so `skipNumber` needs
  to know what stands behind (`skipNumber_append`, `exists_unsigned_of_skipNumber`).
* `skipScalar` has both (`skipScalar_word`, `exists_of_skipScalar`).
-/

namespace DialogueExport.Json

/-! ## 1. Literals -/

theorem readLiteral_append (es rest : List Char) : readLiteral es (es ++ rest) = .ok rest := by
  induction es with
  | nil => rfl
  | cons e es ih => rw [List.cons_append, readLiteral, if_pos rfl, ih]

theorem eq_append_of_readLiteral {es s r : List Char} (h : readLiteral es s = .ok r) :
    s = es ++ r := by
  induction es generalizing s with
  | nil =>
    cases h
    rfl
  | cons e es ih =>
    cases s with
    | nil => cases h
    | cons c s =>
      rw [readLiteral] at h
      split at h
      · next hc => rw [ih h, hc, List.cons_append]
      · cases h

/-! ## 2. Strings that are passed over -/

theorem skipText_quote (r : List Char) : skipText ('"' :: r) = .ok r := by
  rw [skipText]
  rfl

theorem skipText_escape {s r : List Char} (h : skipEscape s = .ok r) :
    skipText ('\\' :: s) = skipText r := by
  rw [skipText]
  simp only [show ('\\' : Char) ≠ '"' by decide, if_false, if_true]
  split
  · next f hf => cases h.symm.trans hf
  · next r' hr => cases h.symm.trans hr; rfl

theorem skipText_plain {c : Char} (quote : c ≠ '"') (backslash : c ≠ '\\')
    (control : 0x20 ≤ c.toNat) (s : List Char) : skipText (c :: s) = skipText s := by
  rw [skipText]
  simp only [quote, backslash, if_false, Nat.not_lt.mpr control]

theorem ofLetter?_u : ofLetter? 'u' = none := rfl

theorem readHex_digits {a b c d : Char} (h : ∀ x ∈ [a, b, c, d], (hexDigit? x).isSome)
    (r : List Char) : ∃ n, readHex (a :: b :: c :: d :: r) = .ok (n, r) := by
  obtain ⟨i, hi⟩ := Option.isSome_iff_exists.mp (h a (by simp))
  obtain ⟨j, hj⟩ := Option.isSome_iff_exists.mp (h b (by simp))
  obtain ⟨k, hk⟩ := Option.isSome_iff_exists.mp (h c (by simp))
  obtain ⟨l, hl⟩ := Option.isSome_iff_exists.mp (h d (by simp))
  exact ⟨((i * 16 + j) * 16 + k) * 16 + l, by simp only [readHex, hi, hj, hk, hl]⟩

/-- Four digits are taken, whatever follows. -/
theorem exists_digits_of_readHex {s r : List Char} {n : Nat} (h : readHex s = .ok (n, r)) :
    ∃ a b c d, s = a :: b :: c :: d :: r ∧ (∀ x ∈ [a, b, c, d], (hexDigit? x).isSome) ∧
      ∀ r', readHex (a :: b :: c :: d :: r') = .ok (n, r') := by
  unfold readHex at h
  split at h
  · next a b c d t =>
    split at h
    · next i j k l hi hj hk hl =>
      cases h
      refine ⟨a, b, c, d, rfl, ?_, ?_⟩
      · simp [hi, hj, hk, hl]
      · intro r'
        simp only [readHex, hi, hj, hk, hl]
    · cases h
  · cases h

theorem skipEscape_letter {c : Char} (h : (ofLetter? c).isSome) (r : List Char) :
    skipEscape (c :: r) = .ok r := by
  obtain ⟨d, hd⟩ := Option.isSome_iff_exists.mp h
  simp only [skipEscape, hd]

theorem skipEscape_hex {s r : List Char} {n : Nat} (h : readHex s = .ok (n, r)) :
    skipEscape ('u' :: s) = .ok r := by
  simp only [skipEscape, ofLetter?_u, if_true, h, Except.map]

theorem skipText_body {b : List Char} (h : IsBody b) (rest : List Char) :
    skipText (b ++ '"' :: rest) = .ok rest := by
  induction h with
  | nil => exact skipText_quote rest
  | plain quote backslash control _ ih =>
    rw [List.cons_append, skipText_plain quote backslash control, ih]
  | letter known _ ih =>
    rw [List.cons_append, List.cons_append, skipText_escape (skipEscape_letter known _), ih]
  | number digits _ ih =>
    obtain ⟨n, hn⟩ := readHex_digits digits (_ ++ '"' :: rest)
    simp only [List.cons_append]
    rw [skipText_escape (skipEscape_hex hn), ih]

theorem exists_body_of_skipText {s r : List Char} (h : skipText s = .ok r) :
    ∃ b, IsBody b ∧ s = b ++ '"' :: r := by
  fun_induction skipText s with
  | case1 | case3 | case5 => cases h
  | case2 =>
    cases h
    exact ⟨[], .nil, rfl⟩
  | case4 t u hu _ ih =>
    obtain ⟨b, hb, rfl⟩ := ih h
    unfold skipEscape at hu
    split at hu
    · cases hu
    · next c v =>
      split at hu
      · next d hd =>
        cases hu
        exact ⟨'\\' :: c :: b, .letter (by rw [hd]; rfl) hb, rfl⟩
      · split at hu
        · next hc =>
          obtain ⟨⟨n, w⟩, hn, hw⟩ := map_eq_ok.mp hu
          cases hw
          obtain ⟨i, j, k, l, rfl, hdigits, -⟩ := exists_digits_of_readHex hn
          rw [hc]
          exact ⟨_, .number hdigits hb, rfl⟩
        · cases hu
  | case6 c t hquote hslash hcontrol ih =>
    obtain ⟨b, hb, rfl⟩ := ih h
    exact ⟨c :: b, .plain hquote hslash (Nat.not_lt.mp hcontrol) hb, rfl⟩

/-! ## 3. Strings that are read -/

theorem readHalf_eq_ok {c : Char} {s r : List Char} : readHalf c s = .ok r ↔ s = c :: r := by
  constructor
  · intro h
    unfold readHalf at h
    split at h
    · cases h
    · split at h
      · next hc => cases h; rw [hc]
      · cases h
  · rintro rfl
    rw [readHalf, if_pos rfl]

/-- A pair of surrogates is written as two escapes by number. -/
theorem exists_of_readTrailing {n : Nat} {s r : List Char} {c : Char}
    (h : readTrailing n s = .ok (c, r)) :
    ∃ u m, s = '\\' :: 'u' :: u ∧ readHex u = .ok (m, r) ∧ 0xdc00 ≤ m ∧ m ≤ 0xdfff ∧
      c = ofSurrogates n m := by
  obtain ⟨r₁, h₁, h⟩ := bind_eq_ok.mp h
  obtain ⟨r₂, h₂, h⟩ := bind_eq_ok.mp h
  obtain ⟨⟨m, r₃⟩, h₃, h⟩ := bind_eq_ok.mp h
  rw [readHalf_eq_ok] at h₁ h₂
  dsimp only at h
  split at h
  · next hm =>
    simp only [Except.ok.injEq, Prod.mk.injEq] at h
    obtain ⟨rfl, rfl⟩ := h
    exact ⟨r₂, m, by rw [h₁, h₂], h₃, hm.1, hm.2, rfl⟩
  · cases h

theorem readTrailing_of_readHex {n m : Nat} {u r : List Char} (hu : readHex u = .ok (m, r))
    (hlow : 0xdc00 ≤ m) (hhigh : m ≤ 0xdfff) :
    readTrailing n ('\\' :: 'u' :: u) = .ok (ofSurrogates n m, r) := by
  have hslash : readHalf '\\' ('\\' :: 'u' :: u) = .ok ('u' :: u) := readHalf_eq_ok.mpr rfl
  have hletter : readHalf 'u' ('u' :: u) = .ok u := readHalf_eq_ok.mpr rfl
  simp only [readTrailing, bind, Except.bind, hslash, hletter, hu]
  rw [if_pos ⟨hlow, hhigh⟩]

/-- An escape that is read is taken as far as if it were passed over, a pair as two escapes. -/
theorem skipText_of_readEscape {s r : List Char} {c : Char} (h : readEscape s = .ok (c, r)) :
    skipText ('\\' :: s) = skipText r := by
  unfold readEscape at h
  split at h
  · cases h
  · next d t =>
    split at h
    · next e he =>
      cases h
      exact skipText_escape (skipEscape_letter (by rw [he]; rfl) r)
    · split at h
      · next hd =>
        obtain ⟨⟨n, u⟩, hn, h⟩ := bind_eq_ok.mp h
        rw [hd, skipText_escape (skipEscape_hex hn)]
        dsimp only at h
        split at h
        · cases h
        split at h
        · obtain ⟨v, m, rfl, hm, -⟩ := exists_of_readTrailing h
          exact skipText_escape (skipEscape_hex hm)
        · cases h
          rfl
      · cases h

theorem skipText_of_readText {s t r : List Char} (h : readText s = .ok (t, r)) :
    skipText s = .ok r := by
  fun_induction readText s generalizing t with
  | case1 | case3 | case5 => cases h
  | case2 =>
    cases h
    exact skipText_quote _
  | case4 _ d u hu _ ih =>
    obtain ⟨⟨t', r'⟩, hr, h⟩ := map_eq_ok.mp h
    cases h
    rw [skipText_of_readEscape hu, ih hr]
  | case6 c u hquote hslash hcontrol ih =>
    obtain ⟨⟨t', r'⟩, hr, h⟩ := map_eq_ok.mp h
    cases h
    rw [skipText_plain hquote hslash (Nat.not_lt.mp hcontrol), ih hr]

theorem exists_body_of_readText {s t r : List Char} (h : readText s = .ok (t, r)) :
    ∃ b, s = Body.chars b ++ '"' :: r := by
  obtain ⟨b, hb, hs⟩ := exists_body_of_skipText (skipText_of_readText h)
  exact ⟨⟨b, hb⟩, hs⟩

theorem isBody_printed (s : List Char) : IsBody (s.flatMap printChar) := by
  obtain ⟨b, hb⟩ := exists_body_of_readText (readText_printText s [])
  rw [List.append_cancel_right hb]
  exact b.valid

/-- A text as it is printed. -/
def Body.ofText (t : String) : Body := ⟨t.toList.flatMap printChar, isBody_printed _⟩

/-- Every text is what some string stands for. -/
@[simp] theorem text?_ofText (t : String) : (Body.ofText t).text? = some t := by
  rw [Body.text?, Body.ofText, readText_printText]
  exact congrArg some String.ofList_toList

/-- What an escape stands for depends on nothing behind it. -/
theorem exists_of_readEscape {s r : List Char} {c : Char} (h : readEscape s = .ok (c, r)) :
    ∃ u, s = u ++ r ∧ ∀ r', readEscape (u ++ r') = .ok (c, r') := by
  unfold readEscape at h
  split at h
  · cases h
  · next d t =>
    split at h
    · next e he =>
      cases h
      exact ⟨[d], rfl, fun r' => readEscape_letter he r'⟩
    · split at h
      · next hnone hd =>
        obtain ⟨⟨n, v⟩, hn, hv⟩ := bind_eq_ok.mp h
        dsimp only at hv
        obtain ⟨i, j, k, l, rfl, -, hread⟩ := exists_digits_of_readHex hn
        split at hv
        · cases hv
        next hlow =>
        split at hv
        · next hhigh =>
          obtain ⟨w, m, rfl, hm, hm₁, hm₂, hc⟩ := exists_of_readTrailing hv
          obtain ⟨i', j', k', l', rfl, -, hread'⟩ := exists_digits_of_readHex hm
          refine ⟨[d, i, j, k, l, '\\', 'u', i', j', k', l'], rfl, ?_⟩
          intro r'
          have htrail := readTrailing_of_readHex (n := n) (hread' r') hm₁ hm₂
          rw [hc]
          simp only [List.cons_append, List.nil_append, readEscape, hd, ofLetter?_u, if_true,
            readUnicode, hread, bind, Except.bind, hlow, hhigh, if_false, and_self, htrail]
        · next hhigh =>
          cases hv
          refine ⟨[d, i, j, k, l], rfl, ?_⟩
          intro r'
          simp only [List.cons_append, List.nil_append, readEscape, hd, ofLetter?_u, if_true,
            readUnicode, hread, bind, Except.bind, hlow, hhigh, if_false]
      · cases h

/-- What a string stands for depends on nothing behind its quote. -/
theorem exists_of_readText {s t r : List Char} (h : readText s = .ok (t, r)) :
    ∃ u, s = u ++ r ∧ ∀ r', readText (u ++ r') = .ok (t, r') := by
  fun_induction readText s generalizing t with
  | case1 | case3 | case5 => cases h
  | case2 =>
    cases h
    refine ⟨['"'], rfl, ?_⟩
    intro r'
    rw [List.singleton_append, readText]
    rfl
  | case4 _ d v hv _ ih =>
    obtain ⟨⟨t', r'⟩, hr, h⟩ := map_eq_ok.mp h
    cases h
    obtain ⟨u, rfl, hu⟩ := exists_of_readEscape hv
    obtain ⟨w, rfl, hw⟩ := ih hr
    refine ⟨'\\' :: (u ++ w), by simp, ?_⟩
    intro r'
    rw [List.cons_append, List.append_assoc, readText_escape (hu (w ++ r')), hw]
    rfl
  | case6 c v hquote hslash hcontrol ih =>
    obtain ⟨⟨t', r'⟩, hr, h⟩ := map_eq_ok.mp h
    cases h
    obtain ⟨w, rfl, hw⟩ := ih hr
    refine ⟨c :: w, rfl, ?_⟩
    intro r'
    rw [List.cons_append, readText]
    simp only [hquote, hslash, hcontrol, if_false, hw, Except.map]

theorem readText_body_congr {b : Body} {rest t r : List Char}
    (h : readText (b.chars ++ '"' :: rest) = .ok (t, r)) :
    r = rest ∧ ∀ rest', readText (b.chars ++ '"' :: rest') = .ok (t, rest') := by
  have hskip := skipText_of_readText h
  rw [skipText_body b.valid] at hskip
  cases hskip
  obtain ⟨u, hu, hread⟩ := exists_of_readText h
  have hcut : b.chars ++ ['"'] = u := by
    have : b.chars ++ ['"'] ++ rest = u ++ rest := by
      rw [← hu, List.append_assoc, List.singleton_append]
    exact List.append_cancel_right this
  refine ⟨rfl, ?_⟩
  intro rest'
  have := hread rest'
  rwa [← hcut, List.append_assoc, List.singleton_append] at this

/-- A string is read as what it stands for, wherever it stands. -/
theorem toOption_readText (b : Body) (rest : List Char) :
    (readText (b.chars ++ '"' :: rest)).toOption = b.text?.map fun t => (t.toList, rest) := by
  rw [Body.text?]
  refine Option.ext ?_
  rintro ⟨t, r⟩
  simp only [toOption_eq_some_iff, Option.map_map, Option.map_eq_some_iff, Prod.exists,
    Function.comp_apply, String.toList_ofList, Prod.mk.injEq]
  constructor
  · intro h
    obtain ⟨rfl, hread⟩ := readText_body_congr h
    exact ⟨t, [], hread [], rfl, rfl⟩
  · rintro ⟨t', r', h, rfl, rfl⟩
    exact (readText_body_congr h).2 rest

/-! ## 4. Numbers -/

/-- Nothing here could belong to a number that stands in front. -/
def Apart (s : List Char) : Prop :=
  ∀ c ∈ s.head?, isDigit c = false ∧ c ≠ '.' ∧ isExponentMark c = false

theorem IsDigits.takeWhile_append {ds : List Char} (h : IsDigits ds) {s : List Char}
    (hs : ∀ c ∈ s.head?, isDigit c = false) : (ds ++ s).takeWhile isDigit = ds := by
  have hnil : s.takeWhile isDigit = [] := by
    cases s with
    | nil => rfl
    | cons c s => rw [List.takeWhile_cons_of_neg (by rw [hs c rfl]; decide)]
  rw [List.takeWhile_append_of_pos h.2, hnil, List.append_nil]

theorem IsDigits.dropWhile_append {ds : List Char} (h : IsDigits ds) {s : List Char}
    (hs : ∀ c ∈ s.head?, isDigit c = false) : (ds ++ s).dropWhile isDigit = s := by
  have hs' : s.dropWhile isDigit = s := by
    cases s with
    | nil => rfl
    | cons c s => rw [List.dropWhile_cons_of_neg (by rw [hs c rfl]; decide)]
  rw [List.dropWhile_append_of_pos h.2, hs']

theorem IsDigits.exists_cons {ds : List Char} (h : IsDigits ds) :
    ∃ d r, ds = d :: r ∧ isDigit d = true := by
  obtain ⟨d, r, rfl⟩ := List.exists_cons_of_ne_nil h.1
  exact ⟨d, r, rfl, h.2 d List.mem_cons_self⟩

theorem isDigits_takeWhile {s : List Char} (h : s.takeWhile isDigit ≠ []) :
    IsDigits (s.takeWhile isDigit) :=
  ⟨h, fun _ hd => List.mem_takeWhile_imp hd⟩

theorem takeSign_append {sign : List Char} (h : sign ∈ [[], ['+'], ['-']]) {d : Char}
    (hd : isDigit d = true) (s : List Char) : (takeSign (sign ++ d :: s)).2 = d :: s := by
  have hplus : d ≠ '+' := by rintro rfl; exact absurd hd (by decide)
  have hminus : d ≠ '-' := by rintro rfl; exact absurd hd (by decide)
  simp only [List.mem_cons, List.not_mem_nil, or_false] at h
  rcases h with rfl | rfl | rfl
  · rw [List.nil_append, takeSign]
    · intro r hr
      exact hminus (List.cons.inj hr).1
    · intro r hr
      exact hplus (List.cons.inj hr).1
  · rfl
  · rfl

theorem exists_sign (s : List Char) :
    ∃ sign ∈ [[], ['+'], ['-']], s = sign ++ (takeSign s).2 := by
  unfold takeSign
  split
  · exact ⟨['-'], by simp, rfl⟩
  · exact ⟨['+'], by simp, rfl⟩
  · exact ⟨[], by simp, rfl⟩

theorem skipScale_append {exponent : List Char} (h : IsExponent exponent) {rest : List Char}
    (hrest : Apart rest) : skipScale (exponent ++ rest) = .ok rest := by
  rcases h with rfl | ⟨mark, sign, ds, hmark, hsign, hds, rfl⟩
  · rw [List.nil_append]
    cases rest with
    | nil => rfl
    | cons c r => rw [skipScale, (hrest c rfl).2.2]; rfl
  · obtain ⟨d, r, rfl, hd⟩ := hds.exists_cons
    have hdrop := IsDigits.dropWhile_append hds (s := rest) fun c hc => (hrest c hc).1
    rw [List.cons_append, List.dropWhile_cons_of_pos hd] at hdrop
    rw [List.cons_append, skipScale, hmark, if_pos rfl, List.append_assoc, List.cons_append,
      skipExponent]
    simp only [takeSign_append hsign hd, hd, if_true, hdrop]

theorem exists_exponent_of_skipScale {s r : List Char} (h : skipScale s = .ok r) :
    ∃ exponent, IsExponent exponent ∧ s = exponent ++ r := by
  unfold skipScale at h
  split at h
  · next c t =>
    split at h
    · next hmark =>
      obtain ⟨sign, hsign, ht⟩ := exists_sign t
      unfold skipExponent at h
      dsimp only at h
      split at h
      · cases h
      · next d u hu =>
        split at h
        · next hd =>
          cases h
          have hds : IsDigits (d :: u.takeWhile isDigit) := by
            refine ⟨List.cons_ne_nil _ _, ?_⟩
            intro x hx
            rcases List.mem_cons.mp hx with rfl | hx
            · exact hd
            · exact List.mem_takeWhile_imp hx
          refine ⟨c :: (sign ++ d :: u.takeWhile isDigit),
            Or.inr ⟨c, sign, _, hmark, hsign, hds, rfl⟩, ?_⟩
          rw [List.cons_append, List.append_assoc, List.cons_append,
            List.takeWhile_append_dropWhile, ← hu, ← ht]
        · cases h
    · cases h
      exact ⟨[], Or.inl rfl, rfl⟩
  · cases h
    exact ⟨[], Or.inl rfl, rfl⟩

theorem head?_exponent {exponent : List Char} (h : IsExponent exponent) {rest : List Char}
    (hrest : Apart rest) : ∀ c ∈ (exponent ++ rest).head?, isDigit c = false ∧ c ≠ '.' := by
  intro c hc
  rcases h with rfl | ⟨mark, sign, ds, hmark, -, -, rfl⟩
  · exact ⟨(hrest c hc).1, (hrest c hc).2.1⟩
  · cases hc
    simp only [isExponentMark, Bool.or_eq_true, beq_iff_eq] at hmark
    rcases hmark with rfl | rfl <;> decide

theorem head?_fraction {fraction exponent : List Char} (hf : IsFraction fraction)
    (he : IsExponent exponent) {rest : List Char} (hrest : Apart rest) :
    ∀ c ∈ (fraction ++ (exponent ++ rest)).head?, isDigit c = false := by
  intro c hc
  rcases hf with rfl | ⟨ds, -, rfl⟩
  · exact (head?_exponent he hrest c hc).1
  · cases hc
    decide

theorem skipNumber_append {s : List Char} (h : IsUnsigned s) {rest : List Char}
    (hrest : Apart rest) : skipNumber (s ++ rest) = .ok rest := by
  obtain ⟨whole, fraction, exponent, rfl, ⟨hw, hzero⟩, hf, he⟩ := h
  obtain ⟨d, ds, rfl, hd⟩ := hw.exists_cons
  have hhead := head?_fraction hf he hrest
  have htake := hw.takeWhile_append hhead
  have hdrop := hw.dropWhile_append hhead
  simp only [List.cons_append] at htake hdrop
  have hlead : ¬ (d = '0' ∧ 1 < (d :: ds).length) := by
    rintro ⟨rfl, hl⟩
    rw [hzero rfl] at hl
    exact absurd hl (by decide)
  simp only [List.append_assoc, List.cons_append, skipNumber, hd, Bool.not_true, Bool.false_eq_true,
    if_false, htake, hlead, hdrop]
  rcases hf with rfl | ⟨fs, hfs, rfl⟩
  · rw [List.nil_append]
    have hpoint : ∀ r, exponent ++ rest ≠ '.' :: r := by
      intro r hr
      exact (head?_exponent he hrest '.' (by rw [hr]; rfl)).2 rfl
    split
    · next r hr => exact absurd hr (hpoint r)
    · exact skipScale_append he hrest
  · have hdigits := fun c hc => (head?_exponent he hrest c hc).1
    simp only [List.cons_append, hfs.takeWhile_append hdigits, hfs.dropWhile_append hdigits,
      List.isEmpty_iff, hfs.1, if_false]
    exact skipScale_append he hrest

theorem exists_unsigned_of_skipNumber {s r : List Char} (h : skipNumber s = .ok r) :
    ∃ u, IsUnsigned u ∧ s = u ++ r := by
  unfold skipNumber at h
  split at h
  · cases h
  · next c t =>
    split at h
    · cases h
    next hc =>
    split at h
    · cases h
    next hlead =>
    have hd : isDigit c = true := by simpa using hc
    have htake : (c :: t).takeWhile isDigit = c :: t.takeWhile isDigit :=
      List.takeWhile_cons_of_pos hd
    have hwhole : IsWhole ((c :: t).takeWhile isDigit) := by
      refine ⟨isDigits_takeWhile (by rw [htake]; exact List.cons_ne_nil _ _), ?_⟩
      intro hzero
      rw [htake] at hzero hlead ⊢
      cases hzero
      cases ht : t.takeWhile isDigit with
      | nil => rfl
      | cons d ds => exact absurd ⟨rfl, by rw [ht]; simp⟩ hlead
    have hcut := (List.takeWhile_append_dropWhile (p := isDigit) (l := c :: t)).symm
    split at h
    · next v hv =>
      split at h
      · cases h
      · next hplaces =>
        obtain ⟨exponent, he, hexp⟩ := exists_exponent_of_skipScale h
        have hfs : IsDigits (v.takeWhile isDigit) := isDigits_takeWhile (by simpa using hplaces)
        refine ⟨_, ⟨_, '.' :: v.takeWhile isDigit, exponent, rfl, hwhole,
          Or.inr ⟨_, hfs, rfl⟩, he⟩, ?_⟩
        rw [hv, ← List.takeWhile_append_dropWhile (p := isDigit) (l := v), hexp] at hcut
        simpa using hcut
    · next v hv =>
      obtain ⟨exponent, he, hexp⟩ := exists_exponent_of_skipScale h
      refine ⟨_, ⟨_, [], exponent, rfl, hwhole, Or.inl rfl, he⟩, ?_⟩
      rw [hexp] at hcut
      simpa using hcut

/-! ## 5. Values without brackets -/

theorem skipScalar_word {c : Char} {s : List Char} (h : IsWord (c :: s)) {rest : List Char}
    (hrest : Apart rest) : skipScalar c (s ++ rest) = .ok rest := by
  cases h with
  | nullWord => exact readLiteral_append ['u', 'l', 'l'] rest
  | trueWord => exact readLiteral_append ['r', 'u', 'e'] rest
  | falseWord => exact readLiteral_append ['a', 'l', 's', 'e'] rest
  | negative hs => exact skipNumber_append hs hrest
  | unsigned hs =>
    obtain ⟨d, r, heq, hd⟩ := hs.exists_cons
    obtain ⟨rfl, rfl⟩ := List.cons.inj heq
    have hne : ∀ e, isDigit e = false → c ≠ e := by
      rintro e he rfl
      rw [hd] at he
      cases he
    have hskip := skipNumber_append hs hrest
    rw [List.cons_append] at hskip
    rw [skipScalar]
    simp only [hne '"' (by decide), hne 'n' (by decide), hne 't' (by decide), hne 'f' (by decide),
      hne '-' (by decide), hd, if_false, if_true]
    exact hskip

/-- What is passed over without brackets is a string or a word. -/
theorem exists_of_skipScalar {c : Char} {s r : List Char} (h : skipScalar c s = .ok r) :
    ∃ t u, Spells t (c :: u) ∧ s = u ++ r := by
  unfold skipScalar at h
  split at h
  · next hc =>
    obtain ⟨b, hb, rfl⟩ := exists_body_of_skipText h
    rw [hc]
    exact ⟨.text ⟨b, hb⟩, b ++ ['"'], .text ⟨b, hb⟩, by simp⟩
  split at h
  · next hc => rw [hc]; exact ⟨_, _, .word ⟨_, .nullWord⟩, eq_append_of_readLiteral h⟩
  split at h
  · next hc => rw [hc]; exact ⟨_, _, .word ⟨_, .trueWord⟩, eq_append_of_readLiteral h⟩
  split at h
  · next hc => rw [hc]; exact ⟨_, _, .word ⟨_, .falseWord⟩, eq_append_of_readLiteral h⟩
  split at h
  · next hc =>
    obtain ⟨u, hu, rfl⟩ := exists_unsigned_of_skipNumber h
    rw [hc]
    exact ⟨_, u, .word ⟨_, .negative hu⟩, rfl⟩
  split at h
  · obtain ⟨u, hu, hs⟩ := exists_unsigned_of_skipNumber h
    obtain ⟨d, v, rfl, -⟩ := hu.exists_cons
    obtain ⟨rfl, rfl⟩ := List.cons.inj hs
    exact ⟨_, v, .word ⟨_, .unsigned hu⟩, rfl⟩
  · cases h

end DialogueExport.Json
