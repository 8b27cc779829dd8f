import Mathlib.Data.List.Forall2
import Mathlib.Data.List.Pairwise
import DialogueExport.Proofs.Json.Found

/-!
# The layout of records

A record leaves open how it is written: in which order the fields come, what else stands in the
object, which defaults are spelled out, and whether it is an object at all or the list of its
fields.  `RecordChange` says what may be changed at one record, step by step, and knows nothing of
readers: of a field it needs the name, the default and the changes in its own value (`Slot`).

The other half is about drafts.  The fields of a `Lawful` shape have places of their own in the
draft, so two members can be filled in in either order (`Shape.Lawful.exchange`), any member can be
filled in last (`fill_middle_iff`), and it does not matter what the fields hold that have no member
(`fill_write`).  Then each kind of change is a few lines.

Main statement: `Fits.find?_of_change`.
-/

namespace DialogueExport.Json

variable {α σ : Type}

/-! ## 1. Changes -/

/-- A field, as far as its layout goes. -/
structure Slot where
  name : String
  /-- How its default is written, if it has one. -/
  default? : Option Tree
  /-- What may be changed in its value. -/
  change : Tree → Tree → Prop

/-- A field whose value has no layout of its own. -/
def Slot.plain (name : String) (default? : Option Tree) : Slot := ⟨name, default?, fun _ _ => False⟩

/-- The members of an object as the list of the fields in the order of their declaration.  A field
that has no member takes its default, and the list may stop when no members are left. -/
inductive Placed : List Slot → List (Body × Tree) → List Tree → Prop
  | nil {slots : List Slot} : Placed slots [] []
  | member {slot : Slot} {slots : List Slot} {l r : List (Body × Tree)} {m : Body × Tree}
      {ts : List Tree} (key : m.1.text? = some slot.name) (tail : Placed slots (l ++ r) ts) :
      Placed (slot :: slots) (l ++ m :: r) (m.2 :: ts)
  | default {slot : Slot} {slots : List Slot} {ms : List (Body × Tree)} {t : Tree}
      {ts : List Tree} (absent : ∀ m ∈ ms, m.1.text? ≠ some slot.name)
      (default : slot.default? = some t) (tail : Placed slots ms ts) :
      Placed (slot :: slots) ms (t :: ts)

/-- A change of the layout of a record with these fields. -/
inductive RecordChange (slots : List Slot) : Tree → Tree → Prop
  /-- The members of an object come in any order. -/
  | reorder {ms ms' : List (Body × Tree)} (perm : ms.Perm ms') :
      RecordChange slots (.object ms) (.object ms')
  /-- A member of another name may stand anywhere, whatever its value is. -/
  | insert {l r : List (Body × Tree)} {m : Body × Tree} {name : String}
      (key : m.1.text? = some name) (unknown : ∀ slot ∈ slots, slot.name ≠ name) :
      RecordChange slots (.object (l ++ r)) (.object (l ++ m :: r))
  /-- A default need not be spelled out. -/
  | leaveOut {l r : List (Body × Tree)} {m : Body × Tree} {slot : Slot} (known : slot ∈ slots)
      (key : m.1.text? = some slot.name) (default : slot.default? = some m.2) :
      RecordChange slots (.object (l ++ m :: r)) (.object (l ++ r))
  /-- An object without other members may be the list of its fields. -/
  | place {ms : List (Body × Tree)} {ts : List Tree} (placed : Placed slots ms ts) :
      RecordChange slots (.object ms) (.list ts)
  /-- A list need not end with a default. -/
  | shorten {ts : List Tree} {t : Tree} {slot : Slot} (last : slots[ts.length]? = some slot)
      (default : slot.default? = some t) : RecordChange slots (.list (ts ++ [t])) (.list ts)
  /-- The value of a member changes. -/
  | inMember {l r : List (Body × Tree)} {b : Body} {t t' : Tree} {slot : Slot}
      (known : slot ∈ slots) (key : b.text? = some slot.name) (change : slot.change t t') :
      RecordChange slots (.object (l ++ (b, t) :: r)) (.object (l ++ (b, t') :: r))
  /-- The value at a place changes. -/
  | inPlace {l r : List Tree} {t t' : Tree} {slot : Slot} (known : slots[l.length]? = some slot)
      (change : slot.change t t') : RecordChange slots (.list (l ++ t :: r)) (.list (l ++ t' :: r))

/-- One element of a list changes. -/
inductive ListChange (change : Tree → Tree → Prop) : Tree → Tree → Prop
  | mk {l r : List Tree} {t t' : Tree} (inner : change t t') :
      ListChange change (.list (l ++ t :: r)) (.list (l ++ t' :: r))

/-- One value of a table changes. -/
inductive TableChange (change : Tree → Tree → Prop) : Tree → Tree → Prop
  | mk {l r : List (Body × Tree)} {key : Body} {t t' : Tree} (inner : change t t') :
      TableChange change (.object (l ++ (key, t) :: r)) (.object (l ++ (key, t') :: r))

/-! ## 2. Lists and tables -/

/-- What `find` finds in a tree is still found after the change. -/
def Kept (change : Tree → Tree → Prop) (find : Tree → Option α) : Prop :=
  ∀ ⦃t t'⦄, change t t' → ∀ a, find t = some a → find t' = some a

theorem mapM_append_cons_of_kept {β : Type} {f : β → Option α} {b b' : β}
    (h : ∀ a, f b = some a → f b' = some a) (l r : List β) {as : List α}
    (has : (l ++ b :: r).mapM f = some as) : (l ++ b' :: r).mapM f = some as := by
  rw [List.mapM_append, List.mapM_cons] at has ⊢
  cases hb : f b with
  | none =>
    rw [hb] at has
    cases hl : l.mapM f <;> rw [hl] at has <;> cases has
  | some a =>
    rw [h a hb]
    rwa [hb] at has

theorem Kept.elements {change : Tree → Tree → Prop} {find : Tree → Option α}
    (h : Kept change find) : Kept (ListChange change) (Tree.elements? find) := by
  rintro _ _ ⟨hinner⟩ as has
  exact mapM_append_cons_of_kept (h hinner) _ _ has

theorem Kept.entries {change : Tree → Tree → Prop} {find : Tree → Option α}
    (h : Kept change find) : Kept (TableChange change) (Tree.entries? find) := by
  rintro _ _ ⟨hinner⟩ es hes
  refine mapM_append_cons_of_kept ?_ _ _ hes
  intro e he
  rw [memberOf?, Option.bind_eq_some_iff] at he ⊢
  obtain ⟨key, hkey, he⟩ := he
  obtain ⟨a, ha, rfl⟩ := Option.map_eq_some_iff.mp he
  exact ⟨key, hkey, Option.map_eq_some_iff.mpr ⟨a, h hinner a ha, rfl⟩⟩

theorem Kept.bind {β : Type} {change : Tree → Tree → Prop} {find : Tree → Option α}
    (h : Kept change find) (f : α → Option β) : Kept change fun t => (find t).bind f := by
  intro t t' ht b hb
  obtain ⟨a, ha, hab⟩ := Option.bind_eq_some_iff.mp hb
  exact Option.bind_eq_some_iff.mpr ⟨a, h ht a ha, hab⟩

/-- To change nothing keeps everything. -/
theorem kept_plain (find : Tree → Option α) : Kept (fun _ _ => False) find := fun _ _ h => h.elim

/-! ## 3. Drafts -/

/-- Two fields have different names and different places in the draft. -/
structure Independent (f g : RecordField σ) : Prop where
  names : f.name ≠ g.name
  left : ∀ {w}, f.Writes w → ∀ d, g.isSet (w d) = g.isSet d
  right : ∀ {w}, g.Writes w → ∀ d, f.isSet (w d) = f.isSet d
  comm : ∀ {v w}, f.Writes v → g.Writes w → ∀ d, v (w d) = w (v d)

instance : Std.Symm (@Independent σ) where
  symm _ _ h := ⟨h.names.symm, h.right, h.left, fun hv hw d => (h.comm hw hv d).symm⟩

/-- Every field has a place of its own in the draft, which is empty at the start. -/
structure Shape.Lawful (shape : Shape σ α) : Prop where
  independent : shape.fields.Pairwise Independent
  start : ∀ f ∈ shape.fields, f.isSet shape.start = false
  isSet : ∀ f ∈ shape.fields, ∀ {w}, f.Writes w → ∀ d, f.isSet (w d) = true

/-- What `put` does, in cases. -/
inductive Put (fields : List (RecordField σ)) (d : σ) (m : Body × Tree) : σ → Prop
  | unknown {key : String} (text : m.1.text? = some key) (other : ∀ f ∈ fields, f.name ≠ key) :
      Put fields d m d
  | known {f : RecordField σ} {w : σ → σ} (mem : f ∈ fields) (text : m.1.text? = some f.name)
      (empty : f.isSet d = false) (value : f.read.find? m.2 = some w) : Put fields d m (w d)

namespace Shape.Lawful

variable {shape : Shape σ α}

theorem independent_of_ne (h : shape.Lawful) {f g : RecordField σ} (hf : f ∈ shape.fields)
    (hg : g ∈ shape.fields) (hne : f ≠ g) : Independent f g :=
  h.independent.forall hf hg hne

theorem eq_of_name (h : shape.Lawful) {f g : RecordField σ} (hf : f ∈ shape.fields)
    (hg : g ∈ shape.fields) (hname : f.name = g.name) : f = g := by
  by_contra hne
  exact (h.independent_of_ne hf hg hne).names hname

theorem find?_name (h : shape.Lawful) {f : RecordField σ} (hf : f ∈ shape.fields) :
    shape.fields.find? (fun g => g.name = f.name) = some f := by
  cases hfind : shape.fields.find? (fun g => g.name = f.name) with
  | none =>
    have hmiss := List.find?_eq_none.mp hfind f hf
    simp at hmiss
  | some g =>
    have hname : g.name = f.name := by simpa using List.find?_some hfind
    rw [h.eq_of_name (List.mem_of_find?_eq_some hfind) hf hname]

theorem put_eq_some_iff (h : shape.Lawful) {d d' : σ} {m : Body × Tree} :
    put shape.fields d m = some d' ↔ Put shape.fields d m d' := by
  constructor
  · intro hput
    obtain ⟨key, hkey, hput⟩ := Option.bind_eq_some_iff.mp hput
    split at hput
    · next f hfind =>
      have hname : f.name = key := by simpa using List.find?_some hfind
      split at hput
      · cases hput
      · next hempty =>
        obtain ⟨w, hw, rfl⟩ := Option.map_eq_some_iff.mp hput
        exact .known (List.mem_of_find?_eq_some hfind) (hname ▸ hkey)
          (Bool.not_eq_true _ ▸ hempty) hw
    · next hfind =>
      cases hput
      exact .unknown hkey fun f hf => by simpa using List.find?_eq_none.mp hfind f hf
  · rintro (⟨hkey, hother⟩ | ⟨hmem, hkey, hempty, hvalue⟩)
    · rw [put, hkey, Option.bind_some, List.find?_eq_none.mpr]
      intro f hf
      simpa using hother f hf
    · rw [put, hkey, Option.bind_some, h.find?_name hmem]
      simp only [hempty, Bool.false_eq_true, if_false, hvalue, Option.map_some]

/-- A member of a known name writes its field. -/
theorem put_known_iff (h : shape.Lawful) {f : RecordField σ} (hf : f ∈ shape.fields) {d e : σ}
    {m : Body × Tree} (hkey : m.1.text? = some f.name) :
    Put shape.fields d m e ↔ f.isSet d = false ∧ ∃ w, f.read.find? m.2 = some w ∧ w d = e := by
  constructor
  · rintro (⟨hkey', hother⟩ | ⟨hg, hkey', hempty, hw⟩)
    · rw [hkey] at hkey'
      exact absurd (Option.some.inj hkey') (hother f hf)
    · rw [hkey] at hkey'
      obtain rfl := h.eq_of_name hf hg (Option.some.inj hkey')
      exact ⟨hempty, _, hw, rfl⟩
  · rintro ⟨hempty, w, hw, rfl⟩
    exact .known hf hkey hempty hw

/-- Two members can be filled in in either order. -/
theorem exchange (h : shape.Lawful) {d d₁ d₂ : σ} {m n : Body × Tree}
    (hm : Put shape.fields d m d₁) (hn : Put shape.fields d₁ n d₂) :
    ∃ d', Put shape.fields d n d' ∧ Put shape.fields d' m d₂ := by
  rcases hm with ⟨hkey, hother⟩ | @⟨f, v, hf, hkey, hempty, hv⟩
  · exact ⟨d₂, hn, .unknown hkey hother⟩
  rcases hn with ⟨hkey', hother'⟩ | @⟨g, w, hg, hkey', hempty', hw⟩
  · exact ⟨d, .unknown hkey' hother', .known hf hkey hempty hv⟩
  -- The second field is still empty behind the first, so they are not the same.
  have hne : f ≠ g := by
    rintro rfl
    rw [h.isSet f hf ⟨_, hv⟩] at hempty'
    cases hempty'
  have hindep := h.independent_of_ne hf hg hne
  rw [hindep.left ⟨_, hv⟩] at hempty'
  rw [← hindep.comm ⟨_, hv⟩ ⟨_, hw⟩]
  exact ⟨w d, .known hg hkey' hempty' hw, .known hf hkey ((hindep.right ⟨_, hw⟩ d).trans hempty) hv⟩

theorem fill_cons_iff (h : shape.Lawful) {d e : σ} {m : Body × Tree} {ms : List (Body × Tree)} :
    fill shape.fields d (m :: ms) = some e ↔
      ∃ d', Put shape.fields d m d' ∧ fill shape.fields d' ms = some e := by
  simp only [fill_cons, Option.bind_eq_some_iff, h.put_eq_some_iff]

theorem fill_of_perm (h : shape.Lawful) {ms ms' : List (Body × Tree)} (hperm : ms.Perm ms') :
    ∀ d e, fill shape.fields d ms = some e → fill shape.fields d ms' = some e := by
  induction hperm with
  | nil =>
    intro d e hfill
    exact hfill
  | cons m _ ih =>
    intro d e hfill
    obtain ⟨d', hm, hfill⟩ := h.fill_cons_iff.mp hfill
    exact h.fill_cons_iff.mpr ⟨d', hm, ih d' e hfill⟩
  | swap n m l =>
    intro d e hfill
    obtain ⟨d₁, hn, hfill⟩ := h.fill_cons_iff.mp hfill
    obtain ⟨d₂, hm, hfill⟩ := h.fill_cons_iff.mp hfill
    obtain ⟨d', hm', hn'⟩ := h.exchange hn hm
    exact h.fill_cons_iff.mpr ⟨d', hm', h.fill_cons_iff.mpr ⟨d₂, hn', hfill⟩⟩
  | trans _ _ ih₁ ih₂ =>
    intro d e hfill
    exact ih₂ d e (ih₁ d e hfill)

/-- Any member can be filled in last. -/
theorem fill_middle_iff (h : shape.Lawful) {d e : σ} {m : Body × Tree}
    {l r : List (Body × Tree)} :
    fill shape.fields d (l ++ m :: r) = some e ↔
      ∃ d', fill shape.fields d (l ++ r) = some d' ∧ Put shape.fields d' m e := by
  have hperm : (l ++ m :: r).Perm (l ++ r ++ [m]) :=
    List.perm_middle.trans (List.perm_append_singleton m (l ++ r)).symm
  have hlast : fill shape.fields d (l ++ r ++ [m]) = some e ↔
      ∃ d', fill shape.fields d (l ++ r) = some d' ∧ Put shape.fields d' m e := by
    rw [fill, List.foldlM_append, Option.bind_eq_bind, Option.bind_eq_some_iff]
    simp only [List.foldlM_cons, List.foldlM_nil, bind_pure, h.put_eq_some_iff, fill]
  rw [← hlast]
  exact ⟨h.fill_of_perm hperm d e, h.fill_of_perm hperm.symm d e⟩

theorem isSet_of_put (h : shape.Lawful) {f : RecordField σ} (hf : f ∈ shape.fields) {d d' : σ}
    {m : Body × Tree} (hm : m.1.text? ≠ some f.name) (hput : Put shape.fields d m d') :
    f.isSet d' = f.isSet d := by
  rcases hput with _ | ⟨hg, hkey, -, hw⟩
  · rfl
  · refine (h.independent_of_ne hg hf ?_).left ⟨_, hw⟩ d
    rintro rfl
    exact hm hkey

/-- A field that is not among the members stays empty. -/
theorem isSet_of_fill (h : shape.Lawful) {f : RecordField σ} (hf : f ∈ shape.fields) :
    ∀ {ms : List (Body × Tree)} {d e : σ}, (∀ m ∈ ms, m.1.text? ≠ some f.name) →
      fill shape.fields d ms = some e → f.isSet e = f.isSet d
  | [], d, e, _, hfill => by
    cases hfill
    rfl
  | m :: ms, d, e, hms, hfill => by
    obtain ⟨d', hm, hfill⟩ := h.fill_cons_iff.mp hfill
    have hhead := h.isSet_of_put hf (hms m List.mem_cons_self) hm
    have htail := h.isSet_of_fill hf (fun n hn => hms n (List.mem_cons_of_mem m hn)) hfill
    exact htail.trans hhead

/-- Filling in members does not depend on what another field holds. -/
theorem fill_write (h : shape.Lawful) {f : RecordField σ} (hf : f ∈ shape.fields) {w : σ → σ}
    (hw : f.Writes w) : ∀ {ms : List (Body × Tree)} {d e : σ},
      (∀ m ∈ ms, m.1.text? ≠ some f.name) → fill shape.fields d ms = some e →
        fill shape.fields (w d) ms = some (w e)
  | [], d, e, _, hfill => by
    cases hfill
    rfl
  | m :: ms, d, e, hms, hfill => by
    obtain ⟨d', hm, hfill⟩ := h.fill_cons_iff.mp hfill
    have htail := h.fill_write hf hw (fun n hn => hms n (List.mem_cons_of_mem m hn)) hfill
    refine h.fill_cons_iff.mpr ⟨w d', ?_, htail⟩
    rcases hm with ⟨hkey, hother⟩ | ⟨hg, hkey, hempty, hv⟩
    · exact .unknown hkey hother
    · have hne : f ≠ _ := fun heq => hms m List.mem_cons_self (heq ▸ hkey)
      have hindep := h.independent_of_ne hf hg hne
      rw [hindep.comm hw ⟨_, hv⟩ d]
      exact .known hg hkey ((hindep.left hw d).trans hempty) hv

/-- What a field writes leaves the other fields empty. -/
theorem isSet_of_writes (h : shape.Lawful) {f : RecordField σ} {fields : List (RecordField σ)}
    (hsuffix : f :: fields <:+ shape.fields) {w : σ → σ} (hw : f.Writes w) {d : σ}
    (hempty : ∀ g ∈ f :: fields, g.isSet d = false) : ∀ g ∈ fields, g.isSet (w d) = false := by
  intro g hg
  have hindep := (List.pairwise_cons.mp (h.independent.sublist hsuffix.sublist)).1 g hg
  exact (hindep.left hw d).trans (hempty g (List.mem_cons_of_mem f hg))

end Shape.Lawful

/-! ## 4. Lists -/

@[simp] theorem place_nil (fields : List (RecordField σ)) (d : σ) : place fields d [] = some d := by
  cases fields <;> rfl

theorem place_append (fields : List (RecordField σ)) (d : σ) (l r : List Tree) :
    place fields d (l ++ r) =
      (place fields d l).bind fun d => place (fields.drop l.length) d r := by
  induction l generalizing fields d with
  | nil => rw [place_nil]; rfl
  | cons t l ih =>
    cases fields with
    | nil => rfl
    | cons f fields =>
      rw [List.cons_append, place, place, Option.bind_assoc]
      congr 1
      funext w
      exact ih fields (w d)

/-- The value behind `n` others belongs to the field in that place. -/
theorem place_at {fields : List (RecordField σ)} {n : Nat} {f : RecordField σ}
    (hf : fields[n]? = some f) (d : σ) (t : Tree) (r : List Tree) :
    place (fields.drop n) d (t :: r) =
      (f.read.find? t).bind fun w => place (fields.drop (n + 1)) (w d) r := by
  obtain ⟨hn, rfl⟩ := List.getElem?_eq_some_iff.mp hf
  rw [List.drop_eq_getElem_cons hn, place]

/-- A field behind the last value stays empty. -/
theorem isSet_of_place : ∀ {fields : List (RecordField σ)} {ts : List Tree} {d e : σ},
    fields.Pairwise Independent → place fields d ts = some e →
      ∀ f ∈ fields.drop ts.length, f.isSet e = f.isSet d
  | fields, [], d, e, _, hplace, f, _ => by
    rw [place_nil] at hplace
    rw [Option.some.inj hplace]
  | [], t :: ts, d, e, _, hplace, f, _ => by cases hplace
  | g :: fields, t :: ts, d, e, hfields, hplace, f, hf => by
    obtain ⟨w, hw, hplace⟩ := Option.bind_eq_some_iff.mp hplace
    obtain ⟨hhead, htail⟩ := List.pairwise_cons.mp hfields
    have hstay : f.isSet (w d) = f.isSet d :=
      (hhead f (List.mem_of_mem_drop hf)).left ⟨t, hw⟩ d
    exact (isSet_of_place htail hplace f hf).trans hstay

/-! ## 5. Records -/

/-- What is known of the layout of a field. -/
structure Slot.Fits (shape : Shape σ α) (slot : Slot) (f : RecordField σ) : Prop where
  name : slot.name = f.name
  kept : Kept slot.change f.read.find?
  /-- Writing the default into a draft makes no difference in the end. -/
  default : ∀ {t}, slot.default? = some t → ∃ w, f.read.find? t = some w ∧
    ∀ d, f.isSet d = false → shape.finish (w d) = shape.finish d

/-- The layouts of all fields of a shape. -/
structure Fits (slots : List Slot) (shape : Shape σ α) : Prop where
  lawful : shape.Lawful
  fields : List.Forall₂ (Slot.Fits shape) slots shape.fields

namespace Fits

variable {slots : List Slot} {shape : Shape σ α}

theorem exists_field (h : Fits slots shape) {n : Nat} {slot : Slot}
    (hslot : slots[n]? = some slot) : ∃ f, shape.fields[n]? = some f ∧ slot.Fits shape f := by
  obtain ⟨hn, rfl⟩ := List.getElem?_eq_some_iff.mp hslot
  have hn' : n < shape.fields.length := h.fields.length_eq ▸ hn
  exact ⟨_, List.getElem?_eq_getElem hn', h.fields.get hn hn'⟩

theorem exists_mem (h : Fits slots shape) {slot : Slot} (hslot : slot ∈ slots) :
    ∃ f ∈ shape.fields, slot.Fits shape f := by
  obtain ⟨n, hn⟩ := List.mem_iff_getElem?.mp hslot
  obtain ⟨f, hf, hfits⟩ := h.exists_field hn
  exact ⟨f, List.mem_of_getElem? hf, hfits⟩

theorem map_name (h : Fits slots shape) :
    slots.map Slot.name = shape.fields.map RecordField.name := by
  rw [← List.forall₂_eq_eq_eq, List.forall₂_map_left_iff, List.forall₂_map_right_iff]
  exact h.fields.imp fun _ _ hfits => hfits.name

theorem ne_name (h : Fits slots shape) {name : String} (hslots : ∀ slot ∈ slots, slot.name ≠ name) :
    ∀ f ∈ shape.fields, f.name ≠ name := by
  intro f hf hname
  have hmem : name ∈ slots.map Slot.name := by
    rw [h.map_name]
    exact List.mem_map.mpr ⟨f, hf, hname⟩
  obtain ⟨slot, hslot, hslotName⟩ := List.mem_map.mp hmem
  exact hslots slot hslot hslotName

theorem find?_object_iff {ms : List (Body × Tree)} {a : α} :
    shape.find? (.object ms) = some a ↔
      ∃ d, fill shape.fields shape.start ms = some d ∧ shape.finish d = .ok a := by
  rw [Shape.find?, Option.bind_eq_some_iff]
  simp only [toOption_eq_some_iff]

theorem find?_list_iff {ts : List Tree} {a : α} :
    shape.find? (.list ts) = some a ↔
      ∃ d, place shape.fields shape.start ts = some d ∧ shape.finish d = .ok a := by
  rw [Shape.find?, Option.bind_eq_some_iff]
  simp only [toOption_eq_some_iff]

/-- A default is as good as no member. -/
theorem find?_leaveOut (h : Fits slots shape) {l r : List (Body × Tree)} {m : Body × Tree}
    {slot : Slot} (known : slot ∈ slots) (key : m.1.text? = some slot.name)
    (default : slot.default? = some m.2) {a : α}
    (ha : shape.find? (.object (l ++ m :: r)) = some a) :
    shape.find? (.object (l ++ r)) = some a := by
  obtain ⟨e, he, hfin⟩ := find?_object_iff.mp ha
  obtain ⟨f, hf, hfits⟩ := h.exists_mem known
  obtain ⟨w, hw, hsame⟩ := hfits.default default
  rw [hfits.name] at key
  obtain ⟨d, hd, hput⟩ := h.lawful.fill_middle_iff.mp he
  obtain ⟨hempty, w', hw', rfl⟩ := (h.lawful.put_known_iff hf key).mp hput
  obtain rfl : w = w' := Option.some.inj (hw.symm.trans hw')
  exact find?_object_iff.mpr ⟨d, hd, (hsame d hempty).symm.trans hfin⟩

/-- Members that are placed give a draft that is finished in the same way. -/
theorem exists_place (hlawful : shape.Lawful) {slots : List Slot} {ms : List (Body × Tree)}
    {ts : List Tree} (hplaced : Placed slots ms ts) :
    ∀ {fields : List (RecordField σ)} {d e : σ}, List.Forall₂ (Slot.Fits shape) slots fields →
      fields <:+ shape.fields → (∀ f ∈ fields, f.isSet d = false) →
        fill shape.fields d ms = some e →
          ∃ e', Json.place fields d ts = some e' ∧ shape.finish e' = shape.finish e := by
  induction hplaced with
  | nil =>
    intro fields d e _ _ _ hfill
    cases hfill
    exact ⟨d, place_nil fields d, rfl⟩
  | @member slot slots l r m ts key tail ih =>
    rintro _ d e (_ | @⟨_, f, _, fields, hfits, hrest⟩) hsuffix hempty hfill
    have hf : f ∈ shape.fields := hsuffix.subset List.mem_cons_self
    rw [hfits.name] at key
    obtain ⟨d', hput, hfill⟩ :=
      hlawful.fill_cons_iff.mp (hlawful.fill_of_perm List.perm_middle d e hfill)
    obtain ⟨-, w, hw, rfl⟩ := (hlawful.put_known_iff hf key).mp hput
    have hstay := hlawful.isSet_of_writes hsuffix ⟨_, hw⟩ hempty
    obtain ⟨e', he', hfin⟩ := ih hrest ((List.suffix_cons f fields).trans hsuffix) hstay hfill
    exact ⟨e', by rw [Json.place, hw, Option.bind_some, he'], hfin⟩
  | @default slot slots ms t ts absent default tail ih =>
    rintro _ d e (_ | @⟨_, f, _, fields, hfits, hrest⟩) hsuffix hempty hfill
    have hf : f ∈ shape.fields := hsuffix.subset List.mem_cons_self
    obtain ⟨w, hw, hsame⟩ := hfits.default default
    rw [hfits.name] at absent
    have hlast : f.isSet e = false :=
      (hlawful.isSet_of_fill hf absent hfill).trans (hempty f List.mem_cons_self)
    have hstay := hlawful.isSet_of_writes hsuffix ⟨_, hw⟩ hempty
    obtain ⟨e', he', hfin⟩ := ih hrest ((List.suffix_cons f fields).trans hsuffix) hstay
      (hlawful.fill_write hf ⟨_, hw⟩ absent hfill)
    exact ⟨e', by rw [Json.place, hw, Option.bind_some, he'], hfin.trans (hsame e hlast)⟩

/-- The list of the fields says as much as the members. -/
theorem find?_place (h : Fits slots shape) {ms : List (Body × Tree)} {ts : List Tree}
    (placed : Placed slots ms ts) {a : α} (ha : shape.find? (.object ms) = some a) :
    shape.find? (.list ts) = some a := by
  obtain ⟨e, he, hfin⟩ := find?_object_iff.mp ha
  obtain ⟨e', he', hsame⟩ :=
    exists_place h.lawful placed h.fields (List.suffix_refl _) h.lawful.start he
  exact find?_list_iff.mpr ⟨e', he', hsame.trans hfin⟩

/-- A default at the end of a list is as good as none. -/
theorem find?_shorten (h : Fits slots shape) {ts : List Tree} {t : Tree} {slot : Slot}
    (last : slots[ts.length]? = some slot) (default : slot.default? = some t) {a : α}
    (ha : shape.find? (.list (ts ++ [t])) = some a) : shape.find? (.list ts) = some a := by
  obtain ⟨e, he, hfin⟩ := find?_list_iff.mp ha
  obtain ⟨f, hf, hfits⟩ := h.exists_field last
  obtain ⟨w, hw, hsame⟩ := hfits.default default
  rw [place_append, Option.bind_eq_some_iff] at he
  obtain ⟨d, hd, he⟩ := he
  rw [place_at hf, hw, Option.bind_some, place_nil] at he
  obtain rfl := Option.some.inj he
  have hmem : f ∈ shape.fields.drop ts.length :=
    List.mem_iff_getElem?.mpr ⟨0, by rw [List.getElem?_drop, Nat.add_zero, hf]⟩
  have hempty : f.isSet d = false :=
    (isSet_of_place h.lawful.independent hd f hmem).trans
      (h.lawful.start f (List.mem_of_mem_drop hmem))
  exact find?_list_iff.mpr ⟨d, hd, (hsame d hempty).symm.trans hfin⟩

/-- The value of a member may change as its field allows. -/
theorem find?_inMember (h : Fits slots shape) {l r : List (Body × Tree)} {b : Body} {t t' : Tree}
    {slot : Slot} (known : slot ∈ slots) (key : b.text? = some slot.name)
    (change : slot.change t t') {a : α}
    (ha : shape.find? (.object (l ++ (b, t) :: r)) = some a) :
    shape.find? (.object (l ++ (b, t') :: r)) = some a := by
  obtain ⟨e, he, hfin⟩ := find?_object_iff.mp ha
  obtain ⟨f, hf, hfits⟩ := h.exists_mem known
  rw [hfits.name] at key
  obtain ⟨d, hd, hput⟩ := h.lawful.fill_middle_iff.mp he
  obtain ⟨hempty, w, hw, rfl⟩ := (h.lawful.put_known_iff hf key).mp hput
  have hput' : Put shape.fields d (b, t') (w d) := .known hf key hempty (hfits.kept change w hw)
  exact find?_object_iff.mpr ⟨w d, h.lawful.fill_middle_iff.mpr ⟨d, hd, hput'⟩, hfin⟩

/-- The value at a place may change as the field in that place allows. -/
theorem find?_inPlace (h : Fits slots shape) {l r : List Tree} {t t' : Tree} {slot : Slot}
    (known : slots[l.length]? = some slot) (change : slot.change t t') {a : α}
    (ha : shape.find? (.list (l ++ t :: r)) = some a) :
    shape.find? (.list (l ++ t' :: r)) = some a := by
  obtain ⟨e, he, hfin⟩ := find?_list_iff.mp ha
  obtain ⟨f, hf, hfits⟩ := h.exists_field known
  refine find?_list_iff.mpr ⟨e, ?_, hfin⟩
  rw [place_append, Option.bind_eq_some_iff] at he ⊢
  obtain ⟨d, hd, he⟩ := he
  rw [place_at hf, Option.bind_eq_some_iff] at he
  obtain ⟨w, hw, he⟩ := he
  refine ⟨d, hd, ?_⟩
  rwa [place_at hf, hfits.kept change w hw]

/-- **A record does not depend on its layout.** -/
theorem find?_of_change (h : Fits slots shape) : Kept (RecordChange slots) shape.find? := by
  intro t t' hchange a ha
  cases hchange with
  | reorder perm =>
    obtain ⟨e, he, hfin⟩ := find?_object_iff.mp ha
    exact find?_object_iff.mpr ⟨e, h.lawful.fill_of_perm perm _ e he, hfin⟩
  | insert key unknown =>
    obtain ⟨e, he, hfin⟩ := find?_object_iff.mp ha
    have hput := Put.unknown (d := e) key (h.ne_name unknown)
    exact find?_object_iff.mpr ⟨e, h.lawful.fill_middle_iff.mpr ⟨e, he, hput⟩, hfin⟩
  | leaveOut known key default => exact h.find?_leaveOut known key default ha
  | place placed => exact h.find?_place placed ha
  | shorten last default => exact h.find?_shorten last default ha
  | inMember known key change => exact h.find?_inMember known key change ha
  | inPlace known change => exact h.find?_inPlace known change ha

end Fits

end DialogueExport.Json
