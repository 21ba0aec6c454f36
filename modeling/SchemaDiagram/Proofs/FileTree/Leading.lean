import Mathlib.Tactic.SplitIfs
import SchemaDiagram.Proofs.FileTree.Writing

/-!
Where names lead to when every link on the way is followed, whatever it takes to find out. Names that
lead back to a link which is not followed yet lead nowhere.
-/

namespace SchemaDiagram.FileTree

def IsPlain (name : String) : Prop :=
  isStay name = false ∧ name ≠ ".."

instance (name : String) : Decidable (IsPlain name) :=
  inferInstanceAs (Decidable (_ ∧ _))

def linkStart (target : String) (base : Place) : Place :=
  if linkAnchor target = .none then base else []

/-- Names lead from a place to another one over so many links. Where nothing is there is no link. -/
inductive LeadsIn (t : FileTree) : Nat → Place → List String → Place → Prop
  | here (p : Place) : LeadsIn t 0 p [] p
  | stay {n : Nat} {p q : Place} {name : String} {names : List String}
      (hname : isStay name = true) (hrest : LeadsIn t n p names q) :
      LeadsIn t n p (name :: names) q
  | up {n : Nat} {p q : Place} {names : List String} (hrest : LeadsIn t n p.dropLast names q) :
      LeadsIn t n p (".." :: names) q
  | down {n : Nat} {p q : Place} {name : String} {names : List String} (hname : IsPlain name)
      (hlink : ∀ target, t.find? (p ++ [name]) ≠ some (.link target))
      (hrest : LeadsIn t n (p ++ [name]) names q) : LeadsIn t n p (name :: names) q
  | link {k l : Nat} {p q r : Place} {name target : String} {names : List String}
      (hname : IsPlain name) (hlink : t.find? (p ++ [name]) = some (.link target))
      (htarget : LeadsIn t k (linkStart target p) (linkNames target) r)
      (hrest : LeadsIn t l r names q) : LeadsIn t (k + l + 1) p (name :: names) q

def Leads (t : FileTree) (p : Place) (names : List String) (q : Place) : Prop :=
  ∃ n, LeadsIn t n p names q

def LinkLeadsIn (t : FileTree) (n : Nat) (p q : Place) : Prop :=
  ∃ target, t.find? p = some (.link target) ∧
    LeadsIn t n (linkStart target p.dropLast) (linkNames target) q

section

variable {t : FileTree} {n m : Nat} {p q r : Place} {name : String} {names : List String}

theorem isStay_up : isStay ".." = false := by
  decide

theorem IsPlain.not_stay (h : IsPlain name) : ¬ isStay name = true := by
  simp [h.1]

theorem leadsIn_nil : LeadsIn t n p [] q ↔ n = 0 ∧ q = p := by
  constructor
  · intro h
    cases h with
    | here => exact ⟨rfl, rfl⟩
  · rintro ⟨rfl, rfl⟩
    exact .here q

theorem leadsIn_stay (hname : isStay name = true) :
    LeadsIn t n p (name :: names) q ↔ LeadsIn t n p names q := by
  refine ⟨fun h => ?_, .stay hname⟩
  cases h with
  | stay _ hrest => exact hrest
  | up => exact absurd hname (by simp [isStay_up])
  | down hplain => exact absurd hname hplain.not_stay
  | link hplain => exact absurd hname hplain.not_stay

theorem leadsIn_up : LeadsIn t n p (".." :: names) q ↔ LeadsIn t n p.dropLast names q := by
  refine ⟨fun h => ?_, .up⟩
  cases h with
  | stay hname => exact absurd hname (by simp [isStay_up])
  | up hrest => exact hrest
  | down hplain => exact absurd rfl hplain.2
  | link hplain => exact absurd rfl hplain.2

theorem leadsIn_down (hname : IsPlain name)
    (hlink : ∀ target, t.find? (p ++ [name]) ≠ some (.link target)) :
    LeadsIn t n p (name :: names) q ↔ LeadsIn t n (p ++ [name]) names q := by
  refine ⟨fun h => ?_, .down hname hlink⟩
  cases h with
  | stay hstay => exact absurd hstay hname.not_stay
  | up => exact absurd rfl hname.2
  | down _ _ hrest => exact hrest
  | link _ hfind => exact absurd hfind (hlink _)

theorem linkLeadsIn_iff {target : String} (hlink : t.find? (p ++ [name]) = some (.link target)) :
    LinkLeadsIn t n (p ++ [name]) q ↔ LeadsIn t n (linkStart target p) (linkNames target) q := by
  rw [LinkLeadsIn, List.dropLast_concat]
  constructor
  · rintro ⟨target', hfind, hleads⟩
    rw [hlink] at hfind
    obtain rfl := FileTree.link.inj (Option.some.inj hfind)
    exact hleads
  · intro hleads
    exact ⟨target, hlink, hleads⟩

theorem leadsIn_link {target : String} (hname : IsPlain name)
    (hlink : t.find? (p ++ [name]) = some (.link target)) :
    LeadsIn t n p (name :: names) q ↔
      ∃ k l r, n = k + l + 1 ∧ LinkLeadsIn t k (p ++ [name]) r ∧ LeadsIn t l r names q := by
  constructor
  · intro h
    cases h with
    | stay hstay => exact absurd hstay hname.not_stay
    | up => exact absurd rfl hname.2
    | down _ hno => exact absurd hlink (hno _)
    | link _ hfind htarget hrest =>
        exact ⟨_, _, _, rfl, (linkLeadsIn_iff hfind).2 htarget, hrest⟩
  · rintro ⟨k, l, r, rfl, htarget, hrest⟩
    exact .link hname hlink ((linkLeadsIn_iff hlink).1 htarget) hrest

theorem LeadsIn.unique (h : LeadsIn t n p names q) (h' : LeadsIn t m p names r) :
    n = m ∧ q = r := by
  induction h generalizing m r with
  | here p =>
      obtain ⟨rfl, rfl⟩ := leadsIn_nil.1 h'
      exact ⟨rfl, rfl⟩
  | stay hname _ ih => exact ih ((leadsIn_stay hname).1 h')
  | up _ ih => exact ih (leadsIn_up.1 h')
  | down hname hlink _ ih => exact ih ((leadsIn_down hname hlink).1 h')
  | link hname hlink _ _ ihtarget ihrest =>
      obtain ⟨k, l, s, rfl, htarget, hrest⟩ := (leadsIn_link hname hlink).1 h'
      obtain ⟨rfl, rfl⟩ := ihtarget ((linkLeadsIn_iff hlink).1 htarget)
      obtain ⟨rfl, rfl⟩ := ihrest hrest
      exact ⟨rfl, rfl⟩

theorem LinkLeadsIn.unique (h : LinkLeadsIn t n p q) (h' : LinkLeadsIn t m p r) :
    n = m ∧ q = r := by
  obtain ⟨target, hfind, hleads⟩ := h
  obtain ⟨target', hfind', hleads'⟩ := h'
  rw [hfind] at hfind'
  obtain rfl := FileTree.link.inj (Option.some.inj hfind')
  exact hleads.unique hleads'

end

structure Straight (t : FileTree) (p : Place) : Prop where
  plain : ∀ name ∈ p, IsPlain name
  linkless : ∀ q, q ≠ [] → q <+: p → ∀ target, t.find? q ≠ some (.link target)

section

variable {t : FileTree} {n : Nat} {p q : Place} {name : String} {names : List String}

theorem straight_nil (t : FileTree) : Straight t [] where
  plain _ h := absurd h List.not_mem_nil
  linkless _ hne hfront := absurd (List.prefix_nil.1 hfront) hne

theorem Straight.notMem_up (h : Straight t p) : ".." ∉ p :=
  fun hmem => (h.plain _ hmem).2 rfl

theorem Straight.of_prefix (h : Straight t p) (hfront : q <+: p) : Straight t q where
  plain name hname := h.plain name (hfront.subset hname)
  linkless r hne hr := h.linkless r hne (hr.trans hfront)

theorem Straight.dropLast (h : Straight t p) : Straight t p.dropLast :=
  h.of_prefix (List.dropLast_prefix p)

theorem Straight.linkStart (h : Straight t p) (target : String) :
    Straight t (linkStart target p) := by
  rw [FileTree.linkStart]
  split
  · exact h
  · exact straight_nil t

theorem Straight.concat (h : Straight t p) (hname : IsPlain name)
    (hlink : ∀ target, t.find? (p ++ [name]) ≠ some (.link target)) : Straight t (p ++ [name]) where
  plain other hother := by
    rcases List.mem_append.1 hother with hmem | hmem
    · exact h.plain other hmem
    · obtain rfl := List.mem_singleton.1 hmem
      exact hname
  linkless q hne hfront := by
    rcases List.prefix_concat_iff.1 hfront with rfl | hfront
    · exact hlink
    · exact h.linkless q hne hfront

theorem LeadsIn.straight (h : LeadsIn t n p names q) (hp : Straight t p) : Straight t q := by
  induction h with
  | here p => exact hp
  | stay _ _ ih => exact ih hp
  | up _ ih => exact ih hp.dropLast
  | down hname hlink _ ih => exact ih (hp.concat hname hlink)
  | link _ _ _ _ ihtarget ihrest => exact ihrest (ihtarget (hp.linkStart _))

theorem Straight.leadsIn (h : Straight t (p ++ names)) : LeadsIn t 0 p names (p ++ names) := by
  induction names generalizing p with
  | nil =>
      rw [List.append_nil]
      exact .here p
  | cons name names ih =>
      have hsplit : p ++ name :: names = p ++ [name] ++ names := by simp
      have hname : IsPlain name := h.plain name (by simp)
      have hlink := h.linkless (p ++ [name]) (by simp) (hsplit ▸ List.prefix_append _ _)
      rw [hsplit] at h ⊢
      exact .down hname hlink (ih h)

end

section

variable {t : FileTree} {n : Nat} {p q : Place} {names more : List String}

theorem leadsIn_append :
    LeadsIn t n p (names ++ more) q ↔
      ∃ k l r, n = k + l ∧ LeadsIn t k p names r ∧ LeadsIn t l r more q := by
  constructor
  · intro h
    induction names generalizing n p with
    | nil => exact ⟨0, n, p, (Nat.zero_add n).symm, .here p, h⟩
    | cons name names ih =>
        rw [List.cons_append] at h
        cases h with
        | stay hname hrest =>
            obtain ⟨k, l, r, rfl, hnames, hmore⟩ := ih hrest
            exact ⟨k, l, r, rfl, .stay hname hnames, hmore⟩
        | up hrest =>
            obtain ⟨k, l, r, rfl, hnames, hmore⟩ := ih hrest
            exact ⟨k, l, r, rfl, .up hnames, hmore⟩
        | down hname hlink hrest =>
            obtain ⟨k, l, r, rfl, hnames, hmore⟩ := ih hrest
            exact ⟨k, l, r, rfl, .down hname hlink hnames, hmore⟩
        | @link i _ _ _ _ _ _ _ hname hlink htarget hrest =>
            obtain ⟨k, l, r, rfl, hnames, hmore⟩ := ih hrest
            exact ⟨i + k + 1, l, r, by omega, .link hname hlink htarget hnames, hmore⟩
  · rintro ⟨k, l, r, rfl, hnames, hmore⟩
    induction hnames with
    | here p => rwa [Nat.zero_add]
    | stay hname _ ih => exact .stay hname (ih hmore)
    | up _ ih => exact .up (ih hmore)
    | down hname hlink _ ih => exact .down hname hlink (ih hmore)
    | @link i j _ _ _ _ _ _ hname hlink htarget _ _ ih =>
        rw [show i + j + 1 + l = i + (j + l) + 1 by omega]
        exact .link hname hlink htarget (ih hmore)

theorem LeadsIn.append_iff {r : Place} (h : LeadsIn t 0 p names r) :
    LeadsIn t n p (names ++ more) q ↔ LeadsIn t n r more q := by
  rw [leadsIn_append]
  constructor
  · rintro ⟨k, l, r', rfl, hnames, hmore⟩
    obtain ⟨rfl, rfl⟩ := h.unique hnames
    rwa [Nat.zero_add]
  · intro hmore
    exact ⟨0, n, r, (Nat.zero_add n).symm, h, hmore⟩

end

structure Meets (t : FileTree) (p : Place) (names : List String) (base : Place)
    (name target : String) (rest : List String) : Prop where
  way : ∃ before, names = before ++ name :: rest ∧ LeadsIn t 0 p before base
  plain : IsPlain name
  link : t.find? (base ++ [name]) = some (.link target)

def HaltsAt (t : FileTree) (p : Place) (names : List String) : Halt Place → Prop
  | .done q => LeadsIn t 0 p names q
  | .link base name target rest => Meets t p names base name target rest

section

variable {t : FileTree} {n links : Nat} {p p' q base : Place} {name target : String}
  {names rest : List String} {halt : Halt Place}

theorem Meets.straight (h : Meets t p names base name target rest) (hp : Straight t p) :
    Straight t base := by
  obtain ⟨before, -, hleads⟩ := h.way
  exact hleads.straight hp

theorem Meets.length_lt (h : Meets t p names base name target rest) :
    rest.length < names.length := by
  obtain ⟨before, rfl, -⟩ := h.way
  rw [List.length_append, List.length_cons]
  omega

theorem Meets.leadsIn_iff (h : Meets t p names base name target rest) :
    LeadsIn t n p names q ↔
      ∃ k l r, n = k + l + 1 ∧ LinkLeadsIn t k (base ++ [name]) r ∧ LeadsIn t l r rest q := by
  obtain ⟨before, rfl, hbefore⟩ := h.way
  rw [hbefore.append_iff, leadsIn_link h.plain h.link]

theorem HaltsAt.next (h : HaltsAt t p' names halt)
    (hnext : ∀ {more q}, LeadsIn t 0 p' more q → LeadsIn t 0 p (name :: more) q) :
    HaltsAt t p (name :: names) halt := by
  cases halt with
  | done q => exact hnext h
  | link base other target rest =>
      obtain ⟨⟨before, rfl, hbefore⟩, hplain, hlink⟩ := h
      exact ⟨⟨name :: before, rfl, hnext hbefore⟩, hplain, hlink⟩

theorem meets_first (hname : IsPlain name) (hlink : t.find? (p ++ [name]) = some (.link target)) :
    Meets t p (name :: names) p name target names where
  way := ⟨[], rfl, .here p⟩
  plain := hname
  link := hlink

theorem haltsAt_of_toLink (h : t.toLink .find p names = .ok halt) : HaltsAt t p names halt := by
  induction names generalizing p with
  | nil =>
      obtain rfl := Except.ok.inj h
      exact .here p
  | cons name names ih =>
      rw [toLink] at h
      split at h
      · exact absurd h (by simp)
      · next entries hfind =>
          by_cases hstay : isStay name = true
          · rw [if_pos hstay] at h
            exact (ih h).next (.stay hstay)
          rw [if_neg hstay] at h
          by_cases hup : name = ".."
          · rw [if_pos hup] at h
            subst hup
            exact (ih h).next .up
          have hname : IsPlain name := ⟨Bool.eq_false_iff.2 hstay, hup⟩
          rw [if_neg hup, if_neg (by simp)] at h
          split at h
          · exact absurd h (by simp)
          rw [← find?_concat hfind] at h
          split at h
          · next target hlink =>
              obtain rfl := Except.ok.inj h
              exact meets_first hname hlink
          · next hlink => exact (ih h).next (.down hname hlink)
      · exact absurd h (by simp)

theorem leads_of_followNames (h : t.followNames .find links p names = .ok q) :
    Leads t p names q := by
  induction links generalizing p names with
  | zero =>
      rw [followNames] at h
      split at h
      · exact absurd h (by simp)
      · next q' hhalt =>
          obtain rfl := Except.ok.inj h
          exact ⟨0, haltsAt_of_toLink hhalt⟩
      · exact absurd h (by simp)
  | succ links ih =>
      rw [followNames] at h
      split at h
      · exact absurd h (by simp)
      · next q' hhalt =>
          obtain rfl := Except.ok.inj h
          exact ⟨0, haltsAt_of_toLink hhalt⟩
      · next base name target rest hhalt =>
          have hmeets : Meets t p names base name target rest := haltsAt_of_toLink hhalt
          obtain ⟨n, hleads⟩ := ih h
          obtain ⟨k, l, r, rfl, htarget, hrest⟩ := leadsIn_append.1 hleads
          exact ⟨k + l + 1,
            hmeets.leadsIn_iff.2 ⟨k, l, r, rfl, (linkLeadsIn_iff hmeets.link).2 htarget, hrest⟩⟩

theorem leads_of_follow {path : Path} (h : t.follow .find [] path = .ok q) :
    Leads t [] path.names q := by
  rw [follow] at h
  split at h
  · exact absurd h (by simp)
  · have hstart : path.start [] = [] := by simp [Path.start]
    rw [hstart] at h
    exact leads_of_followNames h

theorem Straight.follow_eq (hp : Straight t p) (h : t.follow .find [] (Path.ofPlace p) = .ok q) :
    q = p := by
  obtain ⟨n, hleads⟩ := leads_of_follow h
  exact (hleads.unique (hp.leadsIn (p := []))).2

theorem toLink_ne_linkLoop {purpose : Purpose} :
    t.toLink purpose p names ≠ .error .linkLoop := by
  induction names generalizing p with
  | nil => simp [toLink]
  | cons name names ih =>
      rw [toLink]
      split
      · simp
      · split_ifs
        · exact ih
        · exact ih
        · simp
        · simp
        · split
          · simp
          · exact ih
      · simp

theorem Straight.follow_ne_linkLoop (hp : Straight t p) :
    t.follow .find [] (Path.ofPlace p) ≠ .error .linkLoop := by
  intro h
  rw [follow] at h
  split at h
  · exact absurd h (by simp)
  · rw [followNames] at h
    split at h
    · next r hhalt =>
        obtain rfl := Except.error.inj h
        exact toLink_ne_linkLoop hhalt
    · exact absurd h (by simp)
    · next base name target rest hhalt =>
        -- No link is met on the way of a walk over none.
        have hmeets : Meets t [] p base name target rest := haltsAt_of_toLink hhalt
        obtain ⟨k, l, r, hcount, -⟩ := hmeets.leadsIn_iff.1 (hp.leadsIn (p := []))
        omega

end

end SchemaDiagram.FileTree
