import Mathlib.Data.Rat.Defs
import Mathlib.Tactic.Linarith
import Mathlib.Tactic.NormNum
import SchemaDiagram.Diagram

/-!
The cards of a layout as rectangles. Each row of the grid lies lower by a card and a gap, but by the
height of the very card that is placed, so that cards in one column can meet.
-/

namespace SchemaDiagram.Diagram

structure Node.Covers (n : Node) (p : ℚ × ℚ) : Prop where
  left : n.x ≤ p.1
  right : p.1 ≤ n.x + cardWidth
  top : n.y ≤ p.2
  bottom : p.2 ≤ n.y + cardHeight n.model

def Node.Apart (m n : Node) : Prop :=
  ∀ p, ¬ (m.Covers p ∧ n.Covers p)

def rowDistance (m : Model) : Nat :=
  cardHeight m + gapY

/-- One of two cards in a column ends before the other one starts. -/
def Clears (columns i j : Nat) (m n : Model) : Prop :=
  (i / columns + 1) * rowDistance m < j / columns * rowDistance n + gapY ∨
    (j / columns + 1) * rowDistance n < i / columns * rowDistance m + gapY

section

variable {m n : Node}

theorem Node.covers_corner {a b : Nat} (hx : n.x ≤ a ∧ a ≤ n.x + cardWidth)
    (hy : n.y ≤ b ∧ b ≤ n.y + cardHeight n.model) : n.Covers (a, b) where
  left := Nat.cast_le.2 hx.1
  right := by
    change (a : ℚ) ≤ n.x + cardWidth
    exact_mod_cast hx.2
  top := Nat.cast_le.2 hy.1
  bottom := by
    change (b : ℚ) ≤ n.y + cardHeight n.model
    exact_mod_cast hy.2

theorem Node.apart_iff : m.Apart n ↔
    m.x + cardWidth < n.x ∨ n.x + cardWidth < m.x ∨
      m.y + cardHeight m.model < n.y ∨ n.y + cardHeight n.model < m.y := by
  constructor
  · intro h
    by_contra hmeet
    -- The upper left corner of what two rectangles share.
    refine h ((max m.x n.x : ℕ), (max m.y n.y : ℕ)) ⟨?_, ?_⟩
    · exact Node.covers_corner (by omega) (by omega)
    · exact Node.covers_corner (by omega) (by omega)
  · rintro h p ⟨hm, hn⟩
    have hx : (m.x : ℚ) ≤ n.x + cardWidth := hm.left.trans hn.right
    have hx' : (n.x : ℚ) ≤ m.x + cardWidth := hn.left.trans hm.right
    have hy : (m.y : ℚ) ≤ n.y + cardHeight n.model := hm.top.trans hn.bottom
    have hy' : (n.y : ℚ) ≤ m.y + cardHeight m.model := hn.top.trans hm.bottom
    norm_cast at hx hx' hy hy'
    omega

end

section

variable {columns i j : Nat} {m n : Model}

theorem place_apart_iff : (place columns i m).Apart (place columns j n) ↔
    i % columns ≠ j % columns ∨ Clears columns i j m n := by
  have hup : (i / columns + 1) * rowDistance m =
      i / columns * rowDistance m + cardHeight m + gapY := by
    rw [Nat.add_one_mul, rowDistance, Nat.add_assoc]
  have hdown : (j / columns + 1) * rowDistance n =
      j / columns * rowDistance n + cardHeight n + gapY := by
    rw [Nat.add_one_mul, rowDistance, Nat.add_assoc]
  rw [Node.apart_iff, Clears, hup, hdown]
  simp only [place, rowDistance, cardWidth, gapX, Nat.add_lt_add_iff_right]
  omega

theorem clears_of_fields_le (hij : i < j) (hcolumn : i % columns = j % columns)
    (hfields : m.fields.length ≤ n.fields.length) : Clears columns i j m n := by
  have hrow : i / columns < j / columns := by
    have hi := Nat.div_add_mod i columns
    have hj := Nat.div_add_mod j columns
    rw [hcolumn] at hi
    exact lt_of_mul_lt_mul_left (a := columns) (by omega) (Nat.zero_le _)
  have hdistance : rowDistance m ≤ rowDistance n := by
    simp only [rowDistance, cardHeight, fieldHeight]
    omega
  have hbelow : (i / columns + 1) * rowDistance m ≤ j / columns * rowDistance n :=
    Nat.mul_le_mul hrow hdistance
  exact .inl (Nat.lt_of_le_of_lt hbelow (Nat.lt_add_of_pos_right (by decide)))

end

theorem layout_apart_iff (models : List Model) :
    ((layout models).Pairwise Node.Apart ↔
      ∀ i j, (hj : j < models.length) → (hij : i < j) →
        i % columns models.length = j % columns models.length →
          Clears (columns models.length) i j models[i] models[j]) ∧
    ((∀ i j, (hj : j < models.length) → (hij : i < j) →
        i % columns models.length = j % columns models.length →
          models[i].fields.length ≤ models[j].fields.length) →
      (layout models).Pairwise Node.Apart) := by
  have hiff : (layout models).Pairwise Node.Apart ↔
      ∀ i j, (hj : j < models.length) → (hij : i < j) →
        i % columns models.length = j % columns models.length →
          Clears (columns models.length) i j models[i] models[j] := by
    rw [List.pairwise_iff_getElem]
    simp only [layout, List.getElem_mapIdx, List.length_mapIdx, place_apart_iff]
    constructor
    · intro h i j hj hij hcolumn
      exact (h i j (hij.trans hj) hj hij).resolve_left fun hne => hne hcolumn
    · intro h i j _ hj hij
      by_cases hcolumn : i % columns models.length = j % columns models.length
      · exact .inr (h i j hj hij hcolumn)
      · exact .inl hcolumn
  refine ⟨hiff, fun hfields => hiff.2 fun i j hj hij hcolumn => ?_⟩
  exact clears_of_fields_le hij hcolumn (hfields i j hj hij hcolumn)

def shopModels : List Model :=
  [⟨"Tag", "tag.js", []⟩, ⟨"Post", "post.js", [{ name := "title" }]⟩,
    ⟨"User", "user.js", [{ name := "name" }, { name := "age" }]⟩]

theorem shopModels_apart :
    (∀ i j, (hj : j < shopModels.length) → (hij : i < j) →
      i % columns shopModels.length = j % columns shopModels.length →
        shopModels[i].fields.length ≤ shopModels[j].fields.length) ∧
    (layout shopModels).Pairwise Node.Apart := by
  have hbounded : ∀ j, (hj : j < shopModels.length) → ∀ i, (hij : i < j) →
      i % columns shopModels.length = j % columns shopModels.length →
        shopModels[i].fields.length ≤ shopModels[j].fields.length := by
    decide
  have hfields : ∀ i j, (hj : j < shopModels.length) → (hij : i < j) →
      i % columns shopModels.length = j % columns shopModels.length →
        shopModels[i].fields.length ≤ shopModels[j].fields.length :=
    fun i j hj hij => hbounded j hj i hij
  exact ⟨hfields, (layout_apart_iff shopModels).2 hfields⟩

theorem tallUser_on_tag : ¬ (layout shopModels.reverse).Pairwise Node.Apart := by
  intro h
  have hapart := List.pairwise_iff_getElem.1 h 0 2 (by decide) (by decide) (by decide)
  refine hapart ((0 : ℕ), (112 : ℕ)) ⟨?_, ?_⟩
  · exact Node.covers_corner (by decide) (by decide)
  · exact Node.covers_corner (by decide) (by decide)

end SchemaDiagram.Diagram
