import SchemaDiagram.Proofs.FileTree.Leading

/-!
Names that lead nowhere since a link on the way leads back to itself, and what is left of them where
that is noticed.
-/

namespace SchemaDiagram.FileTree

/-- Names meet a link again, or the target of a link on the way does, while it is being followed. What
is left is the path of that link with all names behind it. -/
inductive Strays (t : FileTree) : List Place → Place → List String → Path → Prop
  | back {pending : List Place} {p base : Place} {names rest : List String} {name target : String}
      (hmeets : Meets t p names base name target rest) (hpending : base ++ [name] ∈ pending) :
      Strays t pending p names ((Path.ofPlace (base ++ [name])).append (restPath rest))
  | within {pending : List Place} {p base : Place} {names rest : List String}
      {name target : String} {left : Path} (hmeets : Meets t p names base name target rest)
      (hnew : base ++ [name] ∉ pending)
      (htarget : Strays t ((base ++ [name]) :: pending) (linkStart target base) (linkNames target) left) :
      Strays t pending p names (left.append (restPath rest))
  | behind {pending : List Place} {p q base : Place} {names rest : List String}
      {name target : String} {left : Path} {n : Nat} (hmeets : Meets t p names base name target rest)
      (hnew : base ++ [name] ∉ pending) (hlink : LinkLeadsIn t n (base ++ [name]) q)
      (hrest : Strays t pending q rest left) : Strays t pending p names left

section

variable {t : FileTree} {n : Nat} {p q base base' : Place} {name name' target target' : String}
  {names rest rest' : List String} {pending : List Place} {left left' : Path}

theorem Meets.unique (h : Meets t p names base name target rest)
    (h' : Meets t p names base' name' target' rest') :
    base = base' ∧ name = name' ∧ target = target' ∧ rest = rest' := by
  -- No names lead past a link without following it.
  have hpast : ∀ {before more : List String} {base base' : Place} {name target : String},
      IsPlain name → t.find? (base ++ [name]) = some (.link target) → LeadsIn t 0 p before base →
        ¬ LeadsIn t 0 p (before ++ name :: more) base' := by
    intro before more base base' name target hplain hlink hbefore hmore
    rw [hbefore.append_iff, leadsIn_link hplain hlink] at hmore
    obtain ⟨k, l, r, hcount, -⟩ := hmore
    omega
  obtain ⟨⟨before, rfl, hbefore⟩, hplain, hlink⟩ := h
  obtain ⟨⟨before', heq, hbefore'⟩, hplain', hlink'⟩ := h'
  rcases List.append_eq_append_iff.1 heq with ⟨more, rfl, hmore⟩ | ⟨more, rfl, hmore⟩
  · cases more with
    | nil =>
        obtain ⟨rfl, rfl⟩ := List.cons.inj hmore
        rw [List.append_nil] at hbefore'
        obtain ⟨-, rfl⟩ := hbefore.unique hbefore'
        exact ⟨rfl, rfl, FileTree.link.inj (Option.some.inj (hlink.symm.trans hlink')), rfl⟩
    | cons first more =>
        obtain ⟨rfl, -⟩ := List.cons.inj hmore
        exact absurd hbefore' (hpast hplain hlink hbefore)
  · cases more with
    | nil =>
        obtain ⟨rfl, rfl⟩ := List.cons.inj hmore
        rw [List.append_nil] at hbefore
        obtain ⟨-, rfl⟩ := hbefore.unique hbefore'
        exact ⟨rfl, rfl, FileTree.link.inj (Option.some.inj (hlink.symm.trans hlink')), rfl⟩
    | cons first more =>
        obtain ⟨rfl, -⟩ := List.cons.inj hmore
        exact absurd hbefore (hpast hplain' hlink' hbefore')

theorem Strays.exists_pending (h : Strays t pending p names left) (hleads : LeadsIn t n p names q) :
    ∃ p' ∈ pending, ∃ m r, m < n ∧ LinkLeadsIn t m p' r := by
  induction h generalizing n q with
  | back hmeets hpending =>
      obtain ⟨k, l, r, rfl, hlink, -⟩ := hmeets.leadsIn_iff.1 hleads
      exact ⟨_, hpending, k, r, by omega, hlink⟩
  | within hmeets _ _ ih =>
      obtain ⟨k, l, r, rfl, hlink, -⟩ := hmeets.leadsIn_iff.1 hleads
      obtain ⟨p', hp', m, r', hlt, hlink'⟩ := ih ((linkLeadsIn_iff hmeets.link).1 hlink)
      rcases List.mem_cons.1 hp' with rfl | hp'
      · -- The way from a link never comes back to it: it would be longer than itself.
        obtain ⟨rfl, -⟩ := hlink'.unique hlink
        exact absurd hlt (Nat.lt_irrefl m)
      · exact ⟨p', hp', m, r', by omega, hlink'⟩
  | behind hmeets _ hbefore _ ih =>
      obtain ⟨k, l, r, rfl, hlink, hrest⟩ := hmeets.leadsIn_iff.1 hleads
      obtain ⟨-, rfl⟩ := hbefore.unique hlink
      obtain ⟨p', hp', m, r', hlt, hlink'⟩ := ih hrest
      exact ⟨p', hp', m, r', by omega, hlink'⟩

theorem Strays.not_leads (h : Strays t [] p names left) : ¬ Leads t p names q := by
  rintro ⟨n, hleads⟩
  obtain ⟨p', hp', -⟩ := h.exists_pending hleads
  exact absurd hp' List.not_mem_nil

theorem Strays.of_pending (h : Strays t pending p names left)
    (hmeets : Meets t p names base name target rest) (hpending : base ++ [name] ∈ pending) :
    left = (Path.ofPlace (base ++ [name])).append (restPath rest) := by
  cases h with
  | back hmeets' _ =>
      obtain ⟨rfl, rfl, -, rfl⟩ := hmeets.unique hmeets'
      rfl
  | within hmeets' hnew =>
      obtain ⟨rfl, rfl, -, -⟩ := hmeets.unique hmeets'
      exact absurd hpending hnew
  | behind hmeets' hnew =>
      obtain ⟨rfl, rfl, -, -⟩ := hmeets.unique hmeets'
      exact absurd hpending hnew

theorem Strays.of_new (h : Strays t pending p names left)
    (hmeets : Meets t p names base name target rest) (hnew : base ++ [name] ∉ pending) :
    (∃ inner, Strays t ((base ++ [name]) :: pending) (linkStart target base) (linkNames target) inner ∧
      left = inner.append (restPath rest)) ∨
    ∃ n q, LinkLeadsIn t n (base ++ [name]) q ∧ Strays t pending q rest left := by
  cases h with
  | back hmeets' hpending =>
      obtain ⟨rfl, rfl, -, -⟩ := hmeets.unique hmeets'
      exact absurd hpending hnew
  | within hmeets' _ htarget =>
      obtain ⟨rfl, rfl, rfl, rfl⟩ := hmeets.unique hmeets'
      exact .inl ⟨_, htarget, rfl⟩
  | behind hmeets' _ hlink hrest =>
      obtain ⟨rfl, rfl, -, rfl⟩ := hmeets.unique hmeets'
      exact .inr ⟨_, _, hlink, hrest⟩

def Barren (t : FileTree) (pending : List Place) : Prop :=
  ∀ p ∈ pending, ∀ n q, ¬ LinkLeadsIn t n p q

theorem Barren.cons (h : Barren t pending) (hlink : t.find? (base ++ [name]) = some (.link target))
    (htarget : Strays t ((base ++ [name]) :: pending) (linkStart target base) (linkNames target) left) :
    Barren t ((base ++ [name]) :: pending) := by
  have hfirst : ∀ n q, ¬ LinkLeadsIn t n (base ++ [name]) q := by
    intro n q hleads
    obtain ⟨p', hp', m, r, hlt, hleads'⟩ :=
      htarget.exists_pending ((linkLeadsIn_iff hlink).1 hleads)
    rcases List.mem_cons.1 hp' with rfl | hp'
    · obtain ⟨rfl, -⟩ := hleads.unique hleads'
      exact absurd hlt (Nat.lt_irrefl n)
    · exact h p' hp' m r hleads'
  intro p' hp'
  rcases List.mem_cons.1 hp' with rfl | hp'
  · exact hfirst
  · exact h p' hp'

theorem Strays.unique (h : Strays t pending p names left) (h' : Strays t pending p names left')
    (hpending : Barren t pending) : left = left' := by
  induction h generalizing left' with
  | back hmeets hmem => exact (h'.of_pending hmeets hmem).symm
  | within hmeets hnew htarget ih =>
      have hbarren := hpending.cons hmeets.link htarget
      rcases h'.of_new hmeets hnew with ⟨inner, htarget', rfl⟩ | ⟨n, q, hlink, -⟩
      · rw [ih htarget' hbarren]
      · exact absurd hlink (hbarren _ List.mem_cons_self n q)
  | behind hmeets hnew hlink hrest ih =>
      rcases h'.of_new hmeets hnew with ⟨inner, htarget, -⟩ | ⟨n, q, hlink', hrest'⟩
      · exact absurd hlink (hpending.cons hmeets.link htarget _ List.mem_cons_self _ _)
      · obtain ⟨-, rfl⟩ := hlink.unique hlink'
        exact ih hrest' hpending

end

end SchemaDiagram.FileTree
