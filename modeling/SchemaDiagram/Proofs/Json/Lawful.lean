import SchemaDiagram.Json.Reader
import SchemaDiagram.Proofs.Decimal.Rounding
import SchemaDiagram.Proofs.Store.Tables

namespace SchemaDiagram

section

variable {ε δ α β : Type}

theorem map_eq_ok_iff {f : α → β} {x : Except ε α} {b : β} :
    x.map f = .ok b ↔ ∃ a, x = .ok a ∧ f a = b := by
  cases x <;> simp [Except.map]

theorem mapError_eq_ok_iff {f : ε → δ} {x : Except ε α} {a : α} :
    x.mapError f = .ok a ↔ x = .ok a := by
  cases x <;> simp [Except.mapError]

theorem bind_eq_ok_iff {f : α → Except ε β} {x : Except ε α} {b : β} :
    (x >>= f) = .ok b ↔ ∃ a, x = .ok a ∧ f a = .ok b := by
  cases x <;> simp [bind, Except.bind]

theorem map_eq_error_iff {f : α → β} {x : Except ε α} {e : ε} : x.map f = .error e ↔ x = .error e := by
  cases x <;> simp [Except.map]

theorem mapError_eq_error_iff {f : ε → δ} {x : Except ε α} {d : δ} :
    x.mapError f = .error d ↔ ∃ e, x = .error e ∧ f e = d := by
  cases x <;> simp [Except.mapError]

theorem bind_eq_error_iff {f : α → Except ε β} {x : Except ε α} {e : ε} :
    (x >>= f) = .error e ↔ x = .error e ∨ ∃ a, x = .ok a ∧ f a = .error e := by
  cases x <;> simp [bind, Except.bind]

end

namespace Json

@[elab_as_elim]
theorem induction_on {motive : Json → Prop} (v : Json) (null : motive .null)
    (bool : ∀ b, motive (.bool b)) (int : ∀ n, motive (.int n)) (float : ∀ x, motive (.float x))
    (str : ∀ s, motive (.str s)) (arr : ∀ items, (∀ v ∈ items, motive v) → motive (.arr items))
    (obj : ∀ members : List (String × Json), (∀ m ∈ members, motive m.2) → motive (.obj members)) :
    motive v :=
  match v with
  | .null => null
  | .bool b => bool b
  | .int n => int n
  | .float x => float x
  | .str s => str s
  | .arr items => arr items fun v _ => induction_on v null bool int float str arr obj
  | .obj members => obj members fun m _ => induction_on m.2 null bool int float str arr obj
termination_by sizeOf v
decreasing_by
  · have := List.sizeOf_lt_of_mem ‹_›
    simp only [Json.arr.sizeOf_spec]
    omega
  · have := List.sizeOf_lt_of_mem ‹m ∈ members›
    obtain ⟨k, w⟩ := m
    simp only [Json.obj.sizeOf_spec, Prod.mk.sizeOf_spec] at *
    omega

def Lawful : Json → Prop
  | .float x => x.Canonical
  | .arr items => areLawful items
  | .obj members => (members.map Prod.fst).Nodup ∧ haveLawful members
  | _ => True
where
  areLawful : List Json → Prop
    | [] => True
    | v :: vs => v.Lawful ∧ areLawful vs
  haveLawful : List (String × Json) → Prop
    | [] => True
    | (_, v) :: ms => v.Lawful ∧ haveLawful ms

theorem areLawful_iff {items : List Json} : Lawful.areLawful items ↔ ∀ v ∈ items, v.Lawful := by
  induction items with
  | nil => simp [Lawful.areLawful]
  | cons v vs ih => simp [Lawful.areLawful, ih]

theorem haveLawful_iff {members : List (String × Json)} :
    Lawful.haveLawful members ↔ ∀ m ∈ members, m.2.Lawful := by
  induction members with
  | nil => simp [Lawful.haveLawful]
  | cons m ms ih =>
      obtain ⟨k, v⟩ := m
      rw [Lawful.haveLawful, ih, List.forall_mem_cons]

theorem lawful_arr {items : List Json} : (Json.arr items).Lawful ↔ ∀ v ∈ items, v.Lawful := by
  rw [Lawful, areLawful_iff]

theorem lawful_obj {members : List (String × Json)} :
    (Json.obj members).Lawful ↔ (members.map Prod.fst).Nodup ∧ ∀ m ∈ members, m.2.Lawful := by
  rw [Lawful, haveLawful_iff]

theorem scalar_cases {cs rest : List Char} {v : Json} (h : scalar cs = .ok (v, rest)) :
    (∃ word, (word, v) ∈ constants) ∨ number? cs = some (.ok v, rest) := by
  simp only [scalar] at h
  split at h
  · next found hfound =>
      obtain rfl := Except.ok.inj h
      obtain ⟨⟨word, w⟩, hmem, hword⟩ := List.exists_of_findSome?_eq_some hfound
      obtain ⟨left, -, heq⟩ := Option.map_eq_some_iff.1 hword
      obtain ⟨rfl, -⟩ := Prod.mk.inj heq
      exact .inl ⟨word, hmem⟩
  · split at h
    · next hnumber =>
        obtain ⟨rfl, rfl⟩ := Prod.mk.inj (Except.ok.inj h)
        exact .inr hnumber
    · simp at h
    · simp at h

theorem forall_mem_constants {P : Json → Prop} (null : P .null) (bool : ∀ b, P (.bool b))
    (nan : P (.float .nan)) (infinite : ∀ s, P (.float (.infinite s))) {word : String} {v : Json}
    (h : (word, v) ∈ constants) : P v := by
  simp only [constants, List.mem_cons, List.not_mem_nil, or_false, Prod.mk.injEq] at h
  rcases h with ⟨-, rfl⟩ | ⟨-, rfl⟩ | ⟨-, rfl⟩ | ⟨-, rfl⟩ | ⟨-, rfl⟩ | ⟨-, rfl⟩
  exacts [null, bool true, bool false, nan, infinite false, infinite true]

theorem lawful_number {cs rest : List Char} {v : Json} (h : number? cs = some (.ok v, rest)) :
    v.Lawful := by
  simp only [number?] at h
  split at h
  · simp at h
  · split at h
    · split at h
      · simp at h
      · simp only [Option.some.injEq, Prod.mk.injEq, Except.ok.injEq] at h
        rw [← h.1]
        trivial
    · simp only [Option.some.injEq, Prod.mk.injEq, Except.ok.injEq] at h
      rw [← h.1]
      exact Binary64.canonical_ofDecimal _ _ _

theorem lawful_scalar {cs rest : List Char} {v : Json} (h : scalar cs = .ok (v, rest)) :
    v.Lawful := by
  rcases scalar_cases h with ⟨word, hword⟩ | hnumber
  · exact forall_mem_constants trivial (fun _ => trivial) trivial (fun _ => trivial) hword
  · exact lawful_number hnumber

def Members (Q : Json → Prop) (table : List (String × Json)) : Prop :=
  (table.map Prod.fst).Nodup ∧ ∀ m ∈ table, Q m.2

theorem members_nil (Q : Json → Prop) : Members Q [] :=
  ⟨List.nodup_nil, fun _ hm => absurd hm List.not_mem_nil⟩

theorem members_put {Q : Json → Prop} {name : String} {v : Json} {table : List (String × Json)}
    (hv : Q v) (h : Members Q table) : Members Q (put name v table) := by
  refine ⟨nodup_put v h.1, fun m hm => ?_⟩
  rcases mem_put hm with rfl | hmem
  · exact hv
  · exact h.2 m hmem

/-- Whether strings and scalars have a property, and containers whenever what is in them has it; the
property may hang on how many containers can yet open around a value. -/
structure Inherited (P : Nat → Json → Prop) : Prop where
  str : ∀ depth s, P depth (.str s)
  scalar : ∀ depth {cs v rest}, scalar cs = .ok (v, rest) → P depth v
  arr : ∀ depth {items}, (∀ v ∈ items, P depth v) → P (depth + 1) (.arr items)
  obj : ∀ depth {table}, Members (P depth) table → P (depth + 1) (.obj table)

theorem inherited_lawful : Inherited fun _ v => v.Lawful where
  str _ _ := trivial
  scalar _ := lawful_scalar
  arr _ := lawful_arr.2
  obj _ := lawful_obj.2

section

variable [Platform] {P : Nat → Json → Prop} {fuel depth : Nat} {cs rest : List Char} {v : Json}

structure Gives (P : Nat → Json → Prop) (fuel : Nat) : Prop where
  value : ∀ {depth cs v rest}, value fuel depth cs = .ok (v, rest) → P depth v
  elements : ∀ {depth cs items rest}, elements fuel depth cs = .ok (items, rest) →
    ∀ v ∈ items, P depth v
  members : ∀ {depth table cs found rest}, members fuel depth table cs = .ok (found, rest) →
    Members (P depth) table → Members (P depth) found

theorem gives_value_succ (hP : Inherited P) (ih : Gives P fuel)
    (h : value (fuel + 1) depth cs = .ok (v, rest)) : P depth v := by
  rw [value.eq_def] at h
  dsimp only at h
  split at h
  · obtain ⟨found, -, heq⟩ := map_eq_ok_iff.1 h
    obtain ⟨rfl, -⟩ := Prod.mk.inj heq
    exact hP.str _ _
  · simp at h
  · simp at h
  · split at h
    · obtain ⟨rfl, -⟩ := Prod.mk.inj (Except.ok.inj h)
      exact hP.arr _ fun v hv => absurd hv List.not_mem_nil
    · obtain ⟨found, hfound, heq⟩ := map_eq_ok_iff.1 h
      obtain ⟨rfl, -⟩ := Prod.mk.inj heq
      exact hP.arr _ (ih.elements hfound)
  · split at h
    · obtain ⟨rfl, -⟩ := Prod.mk.inj (Except.ok.inj h)
      exact hP.obj _ (members_nil _)
    · obtain ⟨found, hfound, heq⟩ := map_eq_ok_iff.1 h
      obtain ⟨rfl, -⟩ := Prod.mk.inj heq
      exact hP.obj _ (ih.members hfound (members_nil _))
  · exact hP.scalar _ h

theorem gives_elements_succ (ih : Gives P fuel) {items : List Json}
    (h : elements (fuel + 1) depth cs = .ok (items, rest)) : ∀ v ∈ items, P depth v := by
  rw [elements] at h
  obtain ⟨⟨v, behind⟩, hvalue, h⟩ := bind_eq_ok_iff.1 h
  obtain ⟨⟨more, next⟩, -, h⟩ := bind_eq_ok_iff.1 h
  have hv := ih.value hvalue
  dsimp only at h
  split at h
  · obtain ⟨⟨vs, left⟩, helements, h⟩ := bind_eq_ok_iff.1 h
    obtain ⟨rfl, -⟩ := Prod.mk.inj (Except.ok.inj h)
    exact List.forall_mem_cons.2 ⟨hv, ih.elements helements⟩
  · obtain ⟨rfl, -⟩ := Prod.mk.inj (Except.ok.inj h)
    exact List.forall_mem_singleton.2 hv

theorem gives_members_succ (ih : Gives P fuel) {table found : List (String × Json)}
    (h : members (fuel + 1) depth table cs = .ok (found, rest)) (htable : Members (P depth) table) :
    Members (P depth) found := by
  rw [members] at h
  obtain ⟨⟨name, behind⟩, -, h⟩ := bind_eq_ok_iff.1 h
  obtain ⟨⟨v, next⟩, hvalue, h⟩ := bind_eq_ok_iff.1 h
  obtain ⟨⟨more, left⟩, -, h⟩ := bind_eq_ok_iff.1 h
  have hput : Members (P depth) (put name v table) := members_put (ih.value hvalue) htable
  dsimp only at h
  split at h
  · exact ih.members h hput
  · obtain ⟨rfl, -⟩ := Prod.mk.inj (Except.ok.inj h)
    exact hput

theorem gives (hP : Inherited P) (fuel : Nat) : Gives P fuel := by
  induction fuel with
  | zero =>
      refine ⟨fun h => ?_, fun h => ?_, fun h => ?_⟩
      · simp [value] at h
      · simp [elements] at h
      · simp [members] at h
  | succ fuel ih =>
      exact ⟨gives_value_succ hP ih, gives_elements_succ ih, gives_members_succ ih⟩

theorem Inherited.of_parse (hP : Inherited P) (h : parse cs = .ok v) : P Platform.jsonDepth v := by
  rw [parse, parseWithin.eq_def] at h
  split at h
  · simp at h
  · obtain ⟨⟨w, rest⟩, hvalue, h⟩ := bind_eq_ok_iff.1 h
    dsimp only at h
    split at h
    · obtain rfl := Except.ok.inj h
      exact (gives hP _).value hvalue
    · simp at h

theorem lawful_parse (h : parse cs = .ok v) : v.Lawful :=
  inherited_lawful.of_parse h

end

end Json

end SchemaDiagram
