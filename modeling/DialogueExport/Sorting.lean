/-!
# Entries in the order of their keys

`sortByKey` puts entries into the order of their keys.  Strings are ordered by code points, which
is the order of the bytes of their UTF-8.  Main statements: nothing is lost or added
(`sortByKey_perm`), the keys ascend (`sortByKey_pairwise`), and strictly so if no key occurs
twice (`sortByKey_pairwise_lt`).
-/

namespace DialogueExport

variable {α : Type}

/-- Puts an entry in front of the first one whose key is not smaller. -/
def insertByKey (e : String × α) : List (String × α) → List (String × α)
  | [] => [e]
  | f :: l => if e.1 ≤ f.1 then e :: f :: l else f :: insertByKey e l

/-- The entries in the order of their keys. -/
def sortByKey (entries : List (String × α)) : List (String × α) := entries.foldr insertByKey []

theorem insertByKey_perm (e : String × α) : ∀ l : List (String × α),
    (insertByKey e l).Perm (e :: l)
  | [] => List.Perm.refl _
  | f :: l => by
    unfold insertByKey
    split
    · exact List.Perm.refl _
    · exact ((insertByKey_perm e l).cons f).trans (List.Perm.swap e f l)

/-- Sorting loses nothing and adds nothing. -/
theorem sortByKey_perm : ∀ l : List (String × α), (sortByKey l).Perm l
  | [] => List.Perm.refl _
  | e :: l => (insertByKey_perm e (sortByKey l)).trans ((sortByKey_perm l).cons e)

theorem insertByKey_pairwise (e : String × α) : ∀ {l : List (String × α)},
    l.Pairwise (fun a b => a.1 ≤ b.1) → (insertByKey e l).Pairwise fun a b => a.1 ≤ b.1
  | [], _ => by simp [insertByKey]
  | f :: l, h => by
    have hf : ∀ a ∈ l, f.1 ≤ a.1 := fun a ha => List.rel_of_pairwise_cons h ha
    unfold insertByKey
    split
    · next hef =>
      refine List.pairwise_cons.2 ⟨fun a ha => ?_, h⟩
      rcases List.mem_cons.1 ha with rfl | ha
      · exact hef
      · exact String.le_trans hef (hf a ha)
    · next hef =>
      have hfe : f.1 ≤ e.1 := (String.le_total f.1 e.1).resolve_right hef
      refine List.pairwise_cons.2 ⟨fun a ha => ?_, insertByKey_pairwise e h.of_cons⟩
      rcases List.mem_cons.1 ((insertByKey_perm e l).mem_iff.1 ha) with rfl | ha
      · exact hfe
      · exact hf a ha

/-- After sorting the keys ascend. -/
theorem sortByKey_pairwise : ∀ l : List (String × α),
    (sortByKey l).Pairwise fun a b => a.1 ≤ b.1
  | [] => List.Pairwise.nil
  | e :: l => insertByKey_pairwise e (sortByKey_pairwise l)

/-- Keys without repeats ascend strictly. -/
theorem sortByKey_pairwise_lt {l : List (String × α)} (h : (l.map Prod.fst).Nodup) :
    (sortByKey l).Pairwise fun a b => a.1 < b.1 := by
  have hn : ((sortByKey l).map Prod.fst).Nodup := ((sortByKey_perm l).map Prod.fst).nodup_iff.2 h
  have hp := sortByKey_pairwise l
  rw [List.Nodup, List.pairwise_map] at hn
  exact List.Pairwise.imp₂ (fun a b hle hne => Std.lt_of_le_of_ne hle hne) hp hn

end DialogueExport
