import SchemaDiagram.Proofs.FileTree.Straying

/-!
Resolution finds the place that a path leads to. A walk by path is lost just where there is none: it
never comes back to a link that it has yet to follow unless the link leads back to itself, and its
fuel lasts.
-/

namespace SchemaDiagram.FileTree

def Halt.map {α β : Type} (f : α → β) : Halt α → Halt β
  | .done p => .done (f p)
  | .link base name target rest => .link (f base) name target rest

section

variable {t : FileTree} {standing p : Place} {names : List String}

theorem up_ofPlace (h : ".." ∉ p) : up (Path.ofPlace p) = Path.ofPlace p.dropLast := by
  have hlast : p.getLast? ≠ some ".." := fun hlast => h (List.mem_of_getLast? hlast)
  simp [up, Path.ofPlace, Path.parent, Path.isAbsolute, hlast]

theorem ofPlace_inj {p q : Place} : Path.ofPlace p = Path.ofPlace q ↔ p = q := by
  simp [Path.ofPlace]

theorem child_ofPlace (p : Place) (name : String) :
    (Path.ofPlace p).child name = Path.ofPlace (p ++ [name]) :=
  rfl

theorem toLinkOfPath_ofPlace (hp : Straight t p) (standing : Place) (names : List String) :
    ∃ halt, t.toLinkOfPath standing (Path.ofPlace p) names = halt.map Path.ofPlace ∧
      HaltsAt t p names halt := by
  induction names generalizing p with
  | nil => exact ⟨.done p, rfl, .here p⟩
  | cons name names ih =>
      rw [toLinkOfPath]
      by_cases hstay : isStay name = true
      · obtain ⟨halt, hwalk, hhalt⟩ := ih hp
        rw [if_pos hstay]
        exact ⟨halt, hwalk, hhalt.next (.stay hstay)⟩
      rw [if_neg hstay]
      by_cases hup : name = ".."
      · obtain ⟨halt, hwalk, hhalt⟩ := ih hp.dropLast
        subst hup
        rw [if_pos rfl, up_ofPlace hp.notMem_up]
        exact ⟨halt, hwalk, hhalt.next .up⟩
      have hname : IsPlain name := ⟨Bool.eq_false_iff.2 hstay, hup⟩
      have hplain : ".." ∉ p ++ [name] := by
        simpa using ⟨hp.notMem_up, Ne.symm hup⟩
      rw [if_neg hup, child_ofPlace, Path.place_ofPlace standing hplain]
      split
      · next target hlink => exact ⟨.link p name target names, rfl, meets_first hname hlink⟩
      · next hlink =>
          obtain ⟨halt, hwalk, hhalt⟩ := ih (hp.concat hname hlink)
          exact ⟨halt, hwalk, hhalt.next (.down hname hlink)⟩

theorem linkStart_ofPlace (target : String) (p : Place) :
    (if linkAnchor target = .none then Path.ofPlace p else Path.ofPlace []) =
      Path.ofPlace (linkStart target p) := by
  rw [linkStart, apply_ite Path.ofPlace]

variable {fuel : Nat} {seen between : Seen} {path q : Path} {base : Place} {name target : String}
  {rest : List String}

theorem walk_done (hhalt : t.toLinkOfPath standing path names = .done q) :
    t.walk standing fuel seen path names = (seen, .reached q) := by
  rw [walk.eq_def]
  simp only [hhalt]

theorem walk_stuck
    (hhalt : t.toLinkOfPath standing path names = .link (Path.ofPlace base) name target rest)
    (hstuck : fuel = 0 ∨ seen.lookup (Path.ofPlace (base ++ [name])) = some none) :
    t.walk standing fuel seen path names =
      (seen, .lost ((Path.ofPlace (base ++ [name])).append (restPath rest))) := by
  rw [walk.eq_def]
  rcases hstuck with rfl | hseen
  · simp only [hhalt, child_ofPlace]
  · cases fuel <;> simp only [hhalt, child_ofPlace, hseen]

theorem walk_followed
    (hhalt : t.toLinkOfPath standing path names = .link (Path.ofPlace base) name target rest)
    (hseen : seen.lookup (Path.ofPlace (base ++ [name])) = some (some q)) :
    t.walk standing (fuel + 1) seen path names = t.walk standing fuel seen q rest := by
  rw [walk.eq_def]
  simp only [hhalt, child_ofPlace, hseen]

theorem walk_behind
    (hhalt : t.toLinkOfPath standing path names = .link (Path.ofPlace base) name target rest)
    (hseen : seen.lookup (Path.ofPlace (base ++ [name])) = none)
    (hinner : t.walk standing fuel ((Path.ofPlace (base ++ [name]), none) :: seen)
      (Path.ofPlace (linkStart target base)) (linkNames target) = (between, .reached q)) :
    t.walk standing (fuel + 1) seen path names =
      t.walk standing fuel ((Path.ofPlace (base ++ [name]), some q) :: between) q rest := by
  rw [walk.eq_def]
  simp only [hhalt, child_ofPlace, hseen, linkStart_ofPlace, hinner]

theorem walk_within
    (hhalt : t.toLinkOfPath standing path names = .link (Path.ofPlace base) name target rest)
    (hseen : seen.lookup (Path.ofPlace (base ++ [name])) = none)
    (hinner : t.walk standing fuel ((Path.ofPlace (base ++ [name]), none) :: seen)
      (Path.ofPlace (linkStart target base)) (linkNames target) = (between, .lost q)) :
    t.walk standing (fuel + 1) seen path names = (between, .lost (q.append (restPath rest))) := by
  rw [walk.eq_def]
  simp only [hhalt, child_ofPlace, hseen, linkStart_ofPlace, hinner]

end

section

variable {t : FileTree} {standing p d : Place} {names : List String} {fuel n : Nat}
  {seen seen' seen'' : Seen} {q : Path}

def Pending (seen : Seen) (p : Place) : Prop :=
  seen.lookup (Path.ofPlace p) = some none

def Sound (t : FileTree) (seen : Seen) : Prop :=
  ∀ p q, seen.lookup (Path.ofPlace p) = some (some q) →
    ∃ n d, q = Path.ofPlace d ∧ Straight t d ∧ LinkLeadsIn t n p d

structure Later (seen seen' : Seen) : Prop where
  pending : ∀ p, Pending seen' p ↔ Pending seen p
  met : ∀ path, seen'.lookup path = none → seen.lookup path = none

theorem Later.refl (seen : Seen) : Later seen seen :=
  ⟨fun _ => Iff.rfl, fun _ h => h⟩

theorem Later.trans (h : Later seen seen') (h' : Later seen' seen'') : Later seen seen'' :=
  ⟨fun p => (h'.pending p).trans (h.pending p), fun path hpath => h.met path (h'.met path hpath)⟩

theorem lookup_cons_ofPlace (p' : Place) (value : Option Path) (seen : Seen) :
    List.lookup (Path.ofPlace p') ((Path.ofPlace p, value) :: seen) =
      if p' = p then some value else seen.lookup (Path.ofPlace p') := by
  by_cases h : p' = p
  · simp [h]
  · have hne : (Path.ofPlace p' == Path.ofPlace p) = false :=
      beq_eq_false_iff_ne.2 (mt ofPlace_inj.1 h)
    rw [List.lookup_cons, hne, if_neg h]

theorem pending_cons {p' : Place} :
    Pending ((Path.ofPlace p, none) :: seen) p' ↔ p' = p ∨ Pending seen p' := by
  rw [Pending, lookup_cons_ofPlace]
  split
  · next heq => exact ⟨fun _ => .inl heq, fun _ => rfl⟩
  · next hne => exact ⟨.inr, fun h => h.resolve_left hne⟩

theorem Sound.cons_pending (h : Sound t seen) : Sound t ((Path.ofPlace p, none) :: seen) := by
  intro p' q' hq
  rw [lookup_cons_ofPlace] at hq
  split at hq
  · exact absurd hq (by simp)
  · exact h p' q' hq

theorem Sound.cons_followed (h : Sound t seen) (hd : Straight t d) (hleads : LinkLeadsIn t n p d) :
    Sound t ((Path.ofPlace p, some (Path.ofPlace d)) :: seen) := by
  intro p' q' hq
  rw [lookup_cons_ofPlace] at hq
  split at hq
  · next heq =>
      subst heq
      exact ⟨n, d, (Option.some.inj (Option.some.inj hq)).symm, hd, hleads⟩
  · exact h p' q' hq

theorem Later.cons_followed (h : Later ((Path.ofPlace p, none) :: seen) seen')
    (hnew : seen.lookup (Path.ofPlace p) = none) (q : Path) :
    Later seen ((Path.ofPlace p, some q) :: seen') where
  pending p' := by
    have hbefore := h.pending p'
    rw [Pending, Pending, lookup_cons_ofPlace] at hbefore
    rw [Pending, Pending, lookup_cons_ofPlace]
    split at hbefore
    · next heq => simp [heq, hnew]
    · next hne => rwa [if_neg hne]
  met path hpath := by
    rw [List.lookup_cons] at hpath
    split at hpath
    · exact absurd hpath (by simp)
    · next hne =>
        have hbefore := h.met path hpath
        rwa [List.lookup_cons, hne] at hbefore

/-- A walk from a place, with the links that were met before and after it. -/
inductive Walks (t : FileTree) : Nat → Seen → Place → List String → Seen → Trail → Prop
  | done {fuel : Nat} {seen : Seen} {p d : Place} {names : List String}
      (hleads : LeadsIn t 0 p names d) : Walks t fuel seen p names seen (.reached (Path.ofPlace d))
  | stuck {fuel : Nat} {seen : Seen} {p base : Place} {names rest : List String}
      {name target : String} (hmeets : Meets t p names base name target rest)
      (hstuck : fuel = 0 ∨ Pending seen (base ++ [name])) :
      Walks t fuel seen p names seen
        (.lost ((Path.ofPlace (base ++ [name])).append (restPath rest)))
  | followed {fuel : Nat} {seen seen' : Seen} {p base e : Place} {names rest : List String}
      {name target : String} {trail : Trail} (hmeets : Meets t p names base name target rest)
      (hseen : seen.lookup (Path.ofPlace (base ++ [name])) = some (some (Path.ofPlace e)))
      (hrest : Walks t fuel seen e rest seen' trail) : Walks t (fuel + 1) seen p names seen' trail
  | behind {fuel : Nat} {seen between seen' : Seen} {p base e : Place} {names rest : List String}
      {name target : String} {trail : Trail} (hmeets : Meets t p names base name target rest)
      (hseen : seen.lookup (Path.ofPlace (base ++ [name])) = none)
      (htarget : Walks t fuel ((Path.ofPlace (base ++ [name]), none) :: seen)
        (linkStart target base) (linkNames target) between (.reached (Path.ofPlace e)))
      (hrest : Walks t fuel ((Path.ofPlace (base ++ [name]), some (Path.ofPlace e)) :: between) e
        rest seen' trail) : Walks t (fuel + 1) seen p names seen' trail
  | within {fuel : Nat} {seen seen' : Seen} {p base : Place} {names rest : List String}
      {name target : String} {left : Path} (hmeets : Meets t p names base name target rest)
      (hseen : seen.lookup (Path.ofPlace (base ++ [name])) = none)
      (htarget : Walks t fuel ((Path.ofPlace (base ++ [name]), none) :: seen)
        (linkStart target base) (linkNames target) seen' (.lost left)) :
      Walks t (fuel + 1) seen p names seen' (.lost (left.append (restPath rest)))

theorem Walks.reached {trail : Trail} (h : Walks t fuel seen p names seen' trail)
    (hp : Straight t p) (hseen : Sound t seen) (hreached : trail = .reached q) :
    Sound t seen' ∧ Later seen seen' ∧ ∃ n d, q = Path.ofPlace d ∧ LeadsIn t n p names d := by
  induction h generalizing q with
  | done hleads => exact ⟨hseen, .refl _, 0, _, (Trail.reached.inj hreached).symm, hleads⟩
  | stuck _ _ => exact nomatch hreached
  | followed hmeets hknown _ ih =>
      obtain ⟨k, e, heq, he, hlink⟩ := hseen _ _ hknown
      obtain rfl := ofPlace_inj.1 heq
      obtain ⟨hsound, hlater, l, d, rfl, hrest⟩ := ih he hseen hreached
      exact ⟨hsound, hlater, k + l + 1, d, rfl,
        hmeets.leadsIn_iff.2 ⟨k, l, _, rfl, hlink, hrest⟩⟩
  | @behind _ _ _ _ p base e names rest name target _ hmeets hnew _ _ ihtarget ihrest =>
      have hstart : Straight t (linkStart target base) := (hmeets.straight hp).linkStart target
      obtain ⟨hsound, hlater, k, e', heq, htarget⟩ := ihtarget hstart hseen.cons_pending rfl
      obtain rfl := ofPlace_inj.1 heq
      have he : Straight t e := htarget.straight hstart
      have hlink := (linkLeadsIn_iff hmeets.link).2 htarget
      obtain ⟨hsound', hlater', l, d, rfl, hrest⟩ :=
        ihrest he (hsound.cons_followed he hlink) hreached
      exact ⟨hsound', (hlater.cons_followed hnew _).trans hlater', k + l + 1, d, rfl,
        hmeets.leadsIn_iff.2 ⟨k, l, e, rfl, hlink, hrest⟩⟩
  | within _ _ _ _ => exact nomatch hreached

theorem walks {trail : Trail} (hp : Straight t p) (hseen : Sound t seen)
    (h : t.walk standing fuel seen (Path.ofPlace p) names = (seen', trail)) :
    Walks t fuel seen p names seen' trail := by
  induction fuel generalizing seen seen' p names trail with
  | zero =>
      obtain ⟨halt, hhalt, hat⟩ := toLinkOfPath_ofPlace hp standing names
      cases halt with
      | done d =>
          obtain ⟨rfl, rfl⟩ := Prod.mk.inj ((walk_done hhalt).symm.trans h)
          exact .done hat
      | link base name target rest =>
          obtain ⟨rfl, rfl⟩ := Prod.mk.inj ((walk_stuck hhalt (.inl rfl)).symm.trans h)
          exact .stuck hat (.inl rfl)
  | succ fuel ih =>
      obtain ⟨halt, hhalt, hat⟩ := toLinkOfPath_ofPlace hp standing names
      cases halt with
      | done d =>
          obtain ⟨rfl, rfl⟩ := Prod.mk.inj ((walk_done hhalt).symm.trans h)
          exact .done hat
      | link base name target rest =>
          have hstart : Straight t (linkStart target base) :=
            (Meets.straight hat hp).linkStart target
          rcases hlookup : seen.lookup (Path.ofPlace (base ++ [name])) with - | - | r
          · rcases hinner : t.walk standing fuel ((Path.ofPlace (base ++ [name]), none) :: seen)
                (Path.ofPlace (linkStart target base)) (linkNames target) with ⟨between, r | r⟩
            · rw [walk_behind hhalt hlookup hinner] at h
              have htarget := ih hstart hseen.cons_pending hinner
              obtain ⟨hsound, -, k, e, rfl, hleads⟩ :=
                htarget.reached hstart hseen.cons_pending rfl
              have he : Straight t e := hleads.straight hstart
              have hlink := (linkLeadsIn_iff hat.link).2 hleads
              exact .behind hat hlookup htarget (ih he (hsound.cons_followed he hlink) h)
            · obtain ⟨rfl, rfl⟩ :=
                Prod.mk.inj ((walk_within hhalt hlookup hinner).symm.trans h)
              exact .within hat hlookup (ih hstart hseen.cons_pending hinner)
          · obtain ⟨rfl, rfl⟩ := Prod.mk.inj ((walk_stuck hhalt (.inr hlookup)).symm.trans h)
            exact .stuck hat (.inr hlookup)
          · obtain ⟨k, e, rfl, he, -⟩ := hseen _ _ hlookup
            exact .followed hat hlookup (ih he hseen (walk_followed hhalt hlookup ▸ h))

end

def unmet (seen : Seen) (p : Place) : FileTree → Nat
  | .file _ => 0
  | .link target =>
      if seen.lookup (Path.ofPlace p) = none then (linkNames target).length + 1 else 0
  | .directory entries => unmetIn p entries
where
  unmetIn (p : Place) : List (String × FileTree) → Nat
    | [] => 0
    | (name, t) :: rest => unmet seen (p ++ [name]) t + unmetIn p rest

section

variable {seen seen' : Seen}

mutual

theorem unmet_le_linkSize (seen : Seen) (p : Place) : ∀ t : FileTree, unmet seen p t ≤ t.linkSize
  | .file _ => Nat.le_refl 0
  | .link target => by
      rw [unmet, linkSize]
      split <;> omega
  | .directory entries => by
      rw [unmet, linkSize]
      exact unmetIn_le_sizeIn seen p entries

theorem unmetIn_le_sizeIn (seen : Seen) (p : Place) :
    ∀ entries : List (String × FileTree), unmet.unmetIn seen p entries ≤ linkSize.sizeIn entries
  | [] => Nat.le_refl 0
  | (name, t) :: rest => by
      rw [unmet.unmetIn, linkSize.sizeIn]
      exact Nat.add_le_add (unmet_le_linkSize seen _ t) (unmetIn_le_sizeIn seen p rest)

end

mutual

theorem unmet_le (h : ∀ path, seen'.lookup path = none → seen.lookup path = none) (p : Place) :
    ∀ t : FileTree, unmet seen' p t ≤ unmet seen p t
  | .file _ => Nat.le_refl 0
  | .link target => by
      rw [unmet, unmet]
      split
      · next hnone => exact Nat.le_of_eq (if_pos (h _ hnone)).symm
      · exact Nat.zero_le _
  | .directory entries => by
      rw [unmet, unmet]
      exact unmetIn_le h p entries

theorem unmetIn_le (h : ∀ path, seen'.lookup path = none → seen.lookup path = none) (p : Place) :
    ∀ entries : List (String × FileTree),
      unmet.unmetIn seen' p entries ≤ unmet.unmetIn seen p entries
  | [] => Nat.le_refl 0
  | (name, t) :: rest => by
      rw [unmet.unmetIn, unmet.unmetIn]
      exact Nat.add_le_add (unmet_le h _ t) (unmetIn_le h p rest)

end

variable {t u : FileTree} {standing p : Place} {name target : String} {names : List String} {size : Nat}

theorem unmetIn_add_le (h : ∀ path, seen'.lookup path = none → seen.lookup path = none)
    {entries : List (String × FileTree)} (hlookup : entries.lookup name = some u)
    (hsize : unmet seen' (p ++ [name]) u + size ≤ unmet seen (p ++ [name]) u) :
    unmet.unmetIn seen' p entries + size ≤ unmet.unmetIn seen p entries := by
  induction entries with
  | nil => exact absurd hlookup (by simp)
  | cons entry rest ih =>
      obtain ⟨other, v⟩ := entry
      rw [unmet.unmetIn, unmet.unmetIn]
      rw [List.lookup_cons] at hlookup
      split at hlookup
      · next heq =>
          obtain rfl := beq_iff_eq.1 heq
          obtain rfl := Option.some.inj hlookup
          have hrest := unmetIn_le h p rest
          omega
      · have hfirst := unmet_le h (p ++ [other]) v
        have hrest := ih hlookup
        omega

theorem unmet_cons (hfind : t.find? names = some (.link target))
    (hseen : seen.lookup (Path.ofPlace (p ++ names)) = none) (value : Option Path) :
    unmet ((Path.ofPlace (p ++ names), value) :: seen) p t + ((linkNames target).length + 1) ≤
      unmet seen p t := by
  -- Every link that is met makes what is left to meet smaller by its own size.
  induction names generalizing p t with
  | nil =>
      obtain rfl := Option.some.inj hfind
      rw [List.append_nil] at hseen ⊢
      rw [unmet, unmet, lookup_cons_ofPlace, if_pos hseen]
      simp
  | cons name names ih =>
      obtain ⟨u, hchild, hrest⟩ := Option.bind_eq_some_iff.1 hfind
      cases t with
      | directory entries =>
          rw [List.append_cons] at hseen ⊢
          rw [unmet, unmet]
          refine unmetIn_add_le (fun path hpath => ?_) hchild (ih hrest hseen)
          rw [List.lookup_cons] at hpath
          split at hpath
          · exact absurd hpath (by simp)
          · exact hpath
      | file content => exact absurd hchild (by simp [child?])
      | link other => exact absurd hchild (by simp [child?])

theorem Walks.strays {fuel : Nat} {trail : Trail} {pending : List Place} {q : Path}
    (h : Walks t fuel seen p names seen' trail) (hp : Straight t p) (hseen : Sound t seen)
    (hpending : ∀ p', Pending seen p' ↔ p' ∈ pending)
    (hfuel : names.length + unmet seen [] t ≤ fuel) (hlost : trail = .lost q) :
    Strays t pending p names q := by
  -- The fuel lasts: each link that is followed leaves fewer names, or less that is not met.
  induction h generalizing pending q with
  | done _ => exact nomatch hlost
  | stuck hmeets hstuck =>
      obtain rfl := Trail.lost.inj hlost
      have hlength := hmeets.length_lt
      exact .back hmeets ((hpending _).1 (hstuck.resolve_left (by omega)))
  | followed hmeets hknown _ ih =>
      have hlength := hmeets.length_lt
      obtain ⟨k, e, heq, he, hlink⟩ := hseen _ _ hknown
      obtain rfl := ofPlace_inj.1 heq
      refine .behind hmeets (fun hmem => ?_) hlink (ih he hseen hpending (by omega) hlost)
      exact absurd (hknown.symm.trans ((hpending _).2 hmem)) (by simp)
  | @behind _ _ _ _ p base e names rest name target _ hmeets hnew htarget _ _ ihrest =>
      have hlength := hmeets.length_lt
      have hstart : Straight t (linkStart target base) := (hmeets.straight hp).linkStart target
      obtain ⟨hsound, hlater, k, e', heq, hleads⟩ :=
        htarget.reached hstart hseen.cons_pending rfl
      obtain rfl := ofPlace_inj.1 heq
      have he : Straight t e := hleads.straight hstart
      have hlink := (linkLeadsIn_iff hmeets.link).2 hleads
      have hafter := hlater.cons_followed hnew (Path.ofPlace e)
      have hless := unmet_le hafter.met [] t
      refine .behind hmeets (fun hmem => ?_) hlink (ihrest he (hsound.cons_followed he hlink)
        (fun p' => (hafter.pending p').trans (hpending p')) (by omega) hlost)
      exact absurd (hnew.symm.trans ((hpending _).2 hmem)) (by simp)
  | @within _ _ _ p base names rest name target left hmeets hnew _ ihtarget =>
      obtain rfl := Trail.lost.inj hlost
      have hlength := hmeets.length_lt
      have hsize : unmet ((Path.ofPlace (base ++ [name]), none) :: _) [] t +
          ((linkNames target).length + 1) ≤ _ := unmet_cons (p := []) hmeets.link hnew none
      refine .within hmeets (fun hmem => ?_) (ihtarget ((hmeets.straight hp).linkStart target)
        hseen.cons_pending (fun p' => ?_) (by omega) rfl)
      · exact absurd (hnew.symm.trans ((hpending _).2 hmem)) (by simp)
      · rw [pending_cons, hpending, List.mem_cons]

section

variable {fuel : Nat} {d : Place} {path left : Path}

theorem walk_spec (standing : Place) (hfuel : names.length + t.linkSize ≤ fuel) :
    match (t.walk standing fuel [] (Path.ofPlace []) names).2 with
    | .reached q => ∃ d, q = Path.ofPlace d ∧ Leads t [] names d
    | .lost left => Strays t [] [] names left := by
  have hseen : Sound t [] := fun _ _ h => absurd h (by simp)
  have hsize := unmet_le_linkSize [] [] t
  cases hwalk : t.walk standing fuel [] (Path.ofPlace []) names with
  | mk seen trail =>
      cases trail with
      | reached q =>
          obtain ⟨-, -, n, d, rfl, hleads⟩ :=
            (walks (straight_nil t) hseen hwalk).reached (straight_nil t) hseen rfl
          exact ⟨d, rfl, n, hleads⟩
      | lost left =>
          exact (walks (straight_nil t) hseen hwalk).strays (straight_nil t) hseen
            (by simp [Pending]) (by omega) rfl

theorem walk_of_leads (standing : Place) (hfuel : names.length + t.linkSize ≤ fuel)
    (hleads : Leads t [] names d) :
    (t.walk standing fuel [] (Path.ofPlace []) names).2 = .reached (Path.ofPlace d) := by
  have hspec := walk_spec standing hfuel
  split at hspec
  · next q hwalk =>
      obtain ⟨e, rfl, m, hm⟩ := hspec
      obtain ⟨n, hn⟩ := hleads
      rw [hwalk, (hn.unique hm).2]
  · exact absurd hleads hspec.not_leads

theorem walk_of_strays (standing : Place) (hfuel : names.length + t.linkSize ≤ fuel)
    (hstrays : Strays t [] [] names left) :
    (t.walk standing fuel [] (Path.ofPlace []) names).2 = .lost left := by
  have hspec := walk_spec standing hfuel
  split at hspec
  · next q hwalk =>
      obtain ⟨d, -, hleads⟩ := hspec
      exact absurd hleads hstrays.not_leads
  · next left' hwalk =>
      rw [hwalk, hspec.unique hstrays fun _ h => absurd h List.not_mem_nil]

theorem leads_or_strays (t : FileTree) (names : List String) :
    (∃ d, Leads t [] names d) ∨ ∃ left, Strays t [] [] names left := by
  have hspec := walk_spec [] (Nat.le_refl (names.length + t.linkSize))
  split at hspec
  · obtain ⟨d, -, hleads⟩ := hspec
    exact .inl ⟨d, hleads⟩
  · next left _ => exact .inr ⟨left, hspec⟩

theorem walkBound_ge (t : FileTree) (path : Path) :
    path.names.length + t.linkSize ≤ t.walkBound path := by
  rw [walkBound]
  omega

theorem resolve_of_leads (hpath : path.isAbsolute = true) (hleads : Leads t [] path.names d) :
    t.resolve standing path =
      if path.isNameable then .ok (Path.ofPlace d) else .error .embeddedNull := by
  have hwalk := walk_of_leads standing (walkBound_ge t path) hleads
  obtain ⟨n, hn⟩ := hleads
  have hd : Straight t d := hn.straight (straight_nil t)
  have hstraightened : (Path.ofPlace d).straightened standing = Path.ofPlace d := by
    rw [Path.straightened, Path.place_ofPlace standing hd.notMem_up]
    rfl
  simp only [resolve, hpath, if_true, hwalk, hstraightened]
  split
  · split
    · next hloop => exact absurd hloop hd.follow_ne_linkLoop
    · rfl
  · rfl

theorem resolve_of_strays {target : Path} (hpath : path.isAbsolute = true)
    (hstrays : Strays t [] [] path.names left) :
    t.resolve standing path = .ok target ↔ path.isNameable = true ∧
      target = left.straightened standing ∧ t.follow .find [] target ≠ .error .linkLoop := by
  have hwalk := walk_of_strays standing (walkBound_ge t path) hstrays
  simp only [resolve, hpath, if_true, hwalk]
  split
  · next hname =>
      split
      · next hloop =>
          constructor
          · intro h
            exact absurd h (by simp)
          · rintro ⟨-, rfl, hno⟩
            exact absurd hloop hno
      · next hno =>
          constructor
          · intro h
            obtain rfl := Except.ok.inj h
            exact ⟨hname, rfl, hno⟩
          · rintro ⟨-, rfl, -⟩
            rfl
  · next hname => simp [hname]

end

end

end SchemaDiagram.FileTree
