import SchemaDiagram.Config.Document
import SchemaDiagram.Proofs.Decimal.Overflow
import SchemaDiagram.Proofs.Json.Lawful

namespace SchemaDiagram

theorem exists_bind_eq_ok_iff {ε α β : Type} {x : Except ε α} {f : α → Except ε β} {p : Prop}
    (h : ∀ a, (∃ b, f a = .ok b) ↔ p) : (∃ b, (x >>= f) = .ok b) ↔ (∃ a, x = .ok a) ∧ p := by
  constructor
  · rintro ⟨b, hb⟩
    obtain ⟨a, ha, hb⟩ := bind_eq_ok_iff.1 hb
    exact ⟨⟨a, ha⟩, (h a).1 ⟨b, hb⟩⟩
  · rintro ⟨⟨a, ha⟩, hp⟩
    obtain ⟨b, hb⟩ := (h a).2 hp
    exact ⟨b, bind_eq_ok_iff.2 ⟨a, ha, hb⟩⟩

theorem exists_bind_pure_iff {ε α β : Type} {x : Except ε α} {f : α → β} :
    (∃ b, (x >>= fun a => pure (f a)) = .ok b) ↔ ∃ a, x = .ok a := by
  have hlast (a : α) : (∃ b, (pure (f a) : Except ε β) = .ok b) ↔ True :=
    iff_true_intro ⟨f a, rfl⟩
  exact (exists_bind_eq_ok_iff hlast).trans (and_iff_left trivial)

namespace Config

open SchemaDiagram.Yaml

namespace Setting

def IsLong (v : Value) : Prop :=
  ∃ n : Int, v = .int n ∧ Nat.pow 10 Numeral.digitLimit ≤ n.natAbs

def HasLong (v : Value) : Prop :=
  ∃ items, v = .list items ∧ ∃ item ∈ items, IsLong item

theorem not_isLong_null : ¬ IsLong .null := by
  rintro ⟨n, ⟨⟩, -⟩

theorem not_hasLong_null : ¬ HasLong .null := by
  rintro ⟨items, ⟨⟩, -⟩

theorem isLong_int {n : Int} : IsLong (.int n) ↔ Nat.pow 10 Numeral.digitLimit ≤ n.natAbs := by
  constructor
  · rintro ⟨m, hm, hlong⟩
    obtain rfl := Value.int.inj hm
    exact hlong
  · exact fun hlong => ⟨n, rfl, hlong⟩

theorem exists_text?_iff {v : Value} : (∃ s, text? v = .ok s) ↔ ¬ IsLong v := by
  cases v with
  | int n =>
      rw [isLong_int, Nat.not_le, text?, intText?]
      split
      · next hshort => exact iff_of_true ⟨_, rfl⟩ hshort
      · next hlong => exact iff_of_false (by simp [Except.map]) hlong
  | _ => exact iff_of_true ⟨_, rfl⟩ (by simp [IsLong])

theorem exists_itemTexts_iff {items : List Value} :
    (∃ texts, itemTexts items = .ok texts) ↔ ∀ item ∈ items, ¬ IsLong item := by
  induction items with
  | nil => exact iff_of_true ⟨[], rfl⟩ (by simp)
  | cons v vs ih =>
      rw [List.forall_mem_cons, ← ih, ← exists_text?_iff, itemTexts]
      exact exists_bind_eq_ok_iff fun first => exists_bind_pure_iff

theorem exists_texts_iff {v : Value} : (∃ found, texts v = .ok found) ↔ ¬ HasLong v := by
  cases v with
  | list items =>
      rw [texts, exists_itemTexts_iff]
      simp [HasLong]
  | _ => exact iff_of_true ⟨_, rfl⟩ (by simp [HasLong])

def IsVast (v : Value) : Prop :=
  ∃ n : Int, v = .int n ∧ Binary64.overflowBound ≤ n.natAbs

theorem isVast_int {n : Int} : IsVast (.int n) ↔ (Binary64.ofInt n).isInfinite = true := by
  rw [Binary64.isInfinite_ofInt_iff]
  simp [IsVast]

inductive Lasts : Value → Binary64 → Prop where
  | int {n : Int} (h : ¬ IsVast (.int n)) : Lasts (.int n) (.ofInt n)
  | float (x : Binary64) : Lasts (.float x) x
  | text {s : String} {x : Binary64} (h : Numeral.float? s.toList = some x) : Lasts (.str s) x

theorem float?_int {n : Int} (h : ¬ IsVast (.int n)) :
    float? (.int n) = .ok (some (.ofInt n)) := by
  rw [isVast_int] at h
  rw [float?]
  cases hn : Binary64.ofInt n with
  | infinite s => exact absurd (by rw [hn]; rfl) h
  | _ => rfl

theorem exists_float?_iff {v : Value} : (∃ x, float? v = .ok x) ↔ ¬ IsVast v := by
  cases v with
  | int n =>
      by_cases hvast : IsVast (.int n)
      · refine iff_of_false (fun ⟨x, hx⟩ => ?_) (not_not_intro hvast)
        rw [isVast_int] at hvast
        rw [float?] at hx
        cases hn : Binary64.ofInt n with
        | infinite s => simp [hn] at hx
        | _ => simp [hn, Binary64.isInfinite] at hvast
      · exact iff_of_true ⟨_, float?_int hvast⟩ hvast
  | _ => exact iff_of_true ⟨_, rfl⟩ (by simp [IsVast])

theorem float?_eq_some_iff {v : Value} {x : Binary64} : float? v = .ok (some x) ↔ Lasts v x := by
  constructor
  · intro h
    cases v with
    | int n =>
        have hsmall := exists_float?_iff.1 ⟨_, h⟩
        rw [float?_int hsmall] at h
        obtain rfl := Option.some.inj (Except.ok.inj h)
        exact .int hsmall
    | float y =>
        obtain rfl := Option.some.inj (Except.ok.inj h)
        exact .float y
    | str s => exact .text (Except.ok.inj h)
    | _ => simp [float?] at h
  · intro h
    cases h with
    | int hsmall => exact float?_int hsmall
    | float => rfl
    | text hs => rw [float?, hs]

/-- A number of at least one, or a text that is read as one. -/
inductive Counts : Value → Nat → Prop where
  | int {n : Nat} (h : 0 < n) : Counts (.int n) n
  | text {s : String} {n : Nat} (hs : Numeral.int? s.toList = some (n : Int)) (h : 0 < n) :
      Counts (.str s) n

theorem positive?_eq_some_iff {k : Int} {n : Nat} : positive? k = some n ↔ k = n ∧ 0 < n := by
  rw [positive?]
  split
  · simp only [Option.some.injEq]
    omega
  · simp only [reduceCtorEq, false_iff]
    omega

theorem count?_eq_some_iff {v : Value} {n : Nat} : count? v = some n ↔ Counts v n := by
  constructor
  · intro h
    cases v with
    | int k =>
        obtain ⟨rfl, hpos⟩ := positive?_eq_some_iff.1 h
        exact .int hpos
    | str s =>
        obtain ⟨k, hs, hk⟩ := Option.bind_eq_some_iff.1 h
        obtain ⟨rfl, hpos⟩ := positive?_eq_some_iff.1 hk
        exact .text hs hpos
    | _ => simp [count?] at h
  · intro h
    cases h with
    | int hpos => exact positive?_eq_some_iff.2 ⟨rfl, hpos⟩
    | text hs hpos => exact Option.bind_eq_some_iff.2 ⟨_, hs, positive?_eq_some_iff.2 ⟨rfl, hpos⟩⟩

structure Chosen {α : Type} (meaning : α → Prop) (fallback found : α) : Prop where
  used : ∀ a, meaning a → found = a
  passedOver : (∀ a, ¬ meaning a) → found = fallback

theorem chosen_getD {α : Type} {meaning : α → Prop} {o : Option α}
    (h : ∀ a, o = some a ↔ meaning a) (fallback : α) : Chosen meaning fallback (o.getD fallback) where
  used a ha := by rw [(h a).2 ha, Option.getD_some]
  passedOver hnone := by
    have ho : o = none := Option.eq_none_iff_forall_ne_some.2 fun a ha => hnone a ((h a).1 ha)
    rw [ho, Option.getD_none]

end Setting

end Config

end SchemaDiagram
