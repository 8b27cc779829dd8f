import DialogueExport.Text.Bytes
import Mathlib.Algebra.Group.Nat.Defs
import Mathlib.Tactic.SplitIfs

/-!
# The order of texts

The rows of a table are sorted by code points, files are compared by bytes.  It is the same order:
`utf8_lt_utf8_iff`.  A code point is written as a first byte, which says how many bytes follow and
holds the highest bits, and up to three bytes of six bits each (`utf8EncodeChar_eq`).  So of two
code points the smaller one is decided by the first byte that differs
(`utf8EncodeChar_append_lt`), whatever stands behind them.
-/

namespace DialogueExport.Text

/-- The bytes of a text in UTF-8. -/
def utf8 (s : String) : List UInt8 := s.toUTF8.data.toList

theorem utf8_eq_flatMap (s : String) : utf8 s = s.toList.flatMap String.utf8EncodeChar := by
  rw [utf8, String.toUTF8_eq_toByteArray, ← String.utf8Encode_toList, List.utf8Encode,
    List.toList_data_toByteArray]

/-! ## 1. The bytes of a code point -/

/-- How many bytes follow the first byte. -/
def trailing (v : Nat) : Nat :=
  if v ≤ 0x7f then 0 else if v ≤ 0x7ff then 1 else if v ≤ 0xffff then 2 else 3

/-- The first byte. -/
def lead (v : Nat) : Nat :=
  if v ≤ 0x7f then v
  else if v ≤ 0x7ff then v / 64 % 32 + 192
  else if v ≤ 0xffff then v / 4096 % 16 + 224
  else v / 262144 % 8 + 240

/-- The last `k` bytes, of six bits each. -/
def sextets : Nat → Nat → List UInt8
  | 0, _ => []
  | k + 1, v => UInt8.ofNat (v / 64 ^ k % 64 + 128) :: sextets k v

theorem utf8EncodeChar_eq (c : Char) :
    String.utf8EncodeChar c =
      UInt8.ofNat (lead c.val.toNat) :: sextets (trailing c.val.toNat) c.val.toNat := by
  simp only [String.utf8EncodeChar, lead, trailing]
  generalize c.val.toNat = v
  split_ifs <;> simp [sextets]

theorem lead_lt {n : Nat} (hn : n < 0x110000) : lead n < 256 := by
  unfold lead
  split_ifs <;> omega

/-- A smaller code point has a smaller first byte, or as many bytes and the same bits in front of
its sextets. -/
theorem lead_lt_or {m n : Nat} (h : m < n) (hn : n < 0x110000) :
    lead m < lead n ∨
      lead m = lead n ∧ trailing m = trailing n ∧
        m / 64 ^ trailing m = n / 64 ^ trailing n := by
  unfold lead trailing
  split_ifs <;> omega

/-- A smaller byte in front decides; behind equal ones the rest does. -/
theorem cons_ofNat_lt {m n : Nat} {s t : List UInt8} (hn : n < 256)
    (h : m < n ∨ m = n ∧ s < t) : UInt8.ofNat m :: s < UInt8.ofNat n :: t := by
  rw [List.cons_lt_cons_iff]
  rcases h with h | ⟨rfl, h⟩
  · refine Or.inl ?_
    rw [UInt8.lt_iff_toNat_lt, UInt8.toNat_ofNat', UInt8.toNat_ofNat',
      Nat.mod_eq_of_lt (Nat.lt_trans h hn), Nat.mod_eq_of_lt hn]
    exact h
  · exact Or.inr ⟨rfl, h⟩

/-- Code points with the same bits in front of their last `k` sextets are ordered by these. -/
theorem sextets_append_lt {m n : Nat} (h : m < n) (s t : List UInt8) :
    ∀ {k : Nat}, m / 64 ^ k = n / 64 ^ k → sextets k m ++ s < sextets k n ++ t
  | 0, hk => by omega
  | k + 1, hk => by
    rw [Nat.pow_succ, ← Nat.div_div_eq_div_mul, ← Nat.div_div_eq_div_mul] at hk
    have hle : m / 64 ^ k ≤ n / 64 ^ k := Nat.div_le_div_right (Nat.le_of_lt h)
    rcases Nat.lt_or_eq_of_le hle with hlt | heq
    · exact cons_ofNat_lt (by omega) (Or.inl (by omega))
    · exact cons_ofNat_lt (by omega) (Or.inr ⟨by rw [heq], sextets_append_lt h s t heq⟩)

theorem utf8EncodeChar_append_lt {c d : Char} (h : c < d) (s t : List UInt8) :
    String.utf8EncodeChar c ++ s < String.utf8EncodeChar d ++ t := by
  have hlt : c.val.toNat < d.val.toNat := h
  have hd : d.val.toNat < 0x110000 := by
    have := d.valid
    simp only [UInt32.isValidChar, Nat.isValidChar] at this
    omega
  rw [utf8EncodeChar_eq, utf8EncodeChar_eq]
  refine cons_ofNat_lt (lead_lt hd) ?_
  rcases lead_lt_or hlt hd with hl | ⟨hl, ht, hk⟩
  · exact Or.inl hl
  · rw [ht] at hk ⊢
    exact Or.inr ⟨hl, sextets_append_lt hlt s t hk⟩

/-! ## 2. The bytes of a text -/

theorem flatMap_utf8EncodeChar_lt : ∀ {s t : List Char}, s < t →
    s.flatMap String.utf8EncodeChar < t.flatMap String.utf8EncodeChar
  | s, [], h => absurd h (List.not_lt_nil s)
  | [], d :: t, _ => by
    rw [List.flatMap_cons, utf8EncodeChar_eq]
    exact List.nil_lt_cons _ _
  | c :: s, d :: t, h => by
    rw [List.flatMap_cons, List.flatMap_cons]
    rcases List.cons_lt_cons_iff.mp h with hc | ⟨rfl, hs⟩
    · exact utf8EncodeChar_append_lt hc _ _
    · exact List.append_left_lt (flatMap_utf8EncodeChar_lt hs)

/-- **Texts are ordered as their bytes are.** -/
theorem utf8_lt_utf8_iff {s t : String} : utf8 s < utf8 t ↔ s < t := by
  rw [utf8_eq_flatMap, utf8_eq_flatMap, String.lt_iff]
  constructor
  · intro h
    rcases Std.lt_trichotomy s.toList t.toList with hl | he | hg
    · exact hl
    · rw [he] at h
      exact absurd h (List.lt_irrefl _)
    · exact absurd (flatMap_utf8EncodeChar_lt hg) (List.lt_asymm h)
  · exact flatMap_utf8EncodeChar_lt

end DialogueExport.Text
