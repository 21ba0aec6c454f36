import SchemaDiagram.FileTree.Access

namespace SchemaDiagram.FileTree

theorem lookup_insertEntry_of_ne {name other : String} (hne : other ≠ name) (t : FileTree)
    (entries : List (String × FileTree)) :
    (insertEntry name t entries).lookup other = entries.lookup other := by
  have hbeq : (other == name) = false := by simpa using hne
  induction entries with
  | nil => simp [insertEntry, List.lookup_cons, hbeq]
  | cons entry rest ih =>
      obtain ⟨k, u⟩ := entry
      rw [insertEntry]
      split
      · next hname =>
          subst hname
          simp [List.lookup_cons, hbeq]
      · split
        · rw [List.lookup_cons, hbeq]
        · rw [List.lookup_cons, List.lookup_cons, ih]

def Takes : Place → FileTree → Prop
  | [], .file _ => True
  | name :: names, .directory entries =>
      match entries.lookup name with
      | some t => Takes names t
      | none => names = []
  | _, _ => False

theorem takes_of_file {place : Place} {t : FileTree} {content : Bytes}
    (h : t.find? place = some (.file content)) : Takes place t := by
  induction place generalizing t with
  | nil =>
      obtain rfl := Option.some.inj h
      trivial
  | cons name names ih =>
      obtain ⟨u, hchild, hfind⟩ := Option.bind_eq_some_iff.1 h
      cases t with
      | directory entries =>
          have hlookup : entries.lookup name = some u := hchild
          rw [Takes, hlookup]
          exact ih hfind
      | file _ => exact absurd hchild (by simp [child?])
      | link _ => exact absurd hchild (by simp [child?])

theorem takes_of_none {place : Place} {t : FileTree} {entries : List (String × FileTree)}
    (h : t.find? place = none) (hparent : t.find? place.dropLast = some (.directory entries)) :
    Takes place t := by
  induction place generalizing t with
  | nil => exact absurd h (by simp [find?])
  | cons name names ih =>
      cases t with
      | directory siblings =>
          rw [Takes]
          cases hlookup : siblings.lookup name with
          | none =>
              cases names with
              | nil => rfl
              | cons next names =>
                  have hnone :
                      find? ((name :: next :: names).dropLast) (.directory siblings) = none := by
                    simp [find?, child?, hlookup]
                  rw [hnone] at hparent
                  exact absurd hparent (by simp)
          | some u =>
              have hfind : u.find? names = none := by
                simpa [find?, child?, hlookup] using h
              refine ih hfind ?_
              cases names with
              | nil => exact absurd hfind (by simp [find?])
              | cons next names => simpa [find?, child?, hlookup] using hparent
      | file _ =>
          cases names with
          | nil => exact absurd hparent (by simp [find?])
          | cons next names => exact absurd hparent (by simp [find?, child?])
      | link _ =>
          cases names with
          | nil => exact absurd hparent (by simp [find?])
          | cons next names => exact absurd hparent (by simp [find?, child?])

/-- Whether all directories of a tree are directories of another one as well, and both have the same
links. -/
structure SameWays (t u : FileTree) : Prop where
  directories : ∀ {p entries}, t.find? p = some (.directory entries) →
    ∃ entries', u.find? p = some (.directory entries')
  links : ∀ {p target}, t.find? p = some (.link target) ↔ u.find? p = some (.link target)

theorem find?_file (p : Place) (content : Bytes) :
    find? p (.file content) = some (.file content) ∨ find? p (.file content) = none := by
  cases p with
  | nil => exact .inl rfl
  | cons name names => exact .inr rfl

theorem sameWays_files (content content' : Bytes) : SameWays (.file content) (.file content') where
  directories {p entries} h := by
    rcases find?_file p content with hfile | hnone
    · simp [hfile] at h
    · simp [hnone] at h
  links {p target} := by
    rcases find?_file p content with h | h <;> rcases find?_file p content' with h' | h' <;>
      simp [h, h']

theorem sameWays_directory {entries entries' : List (String × FileTree)}
    (h : ∀ k, entries.lookup k = entries'.lookup k ∨
      (∃ t u, entries.lookup k = some t ∧ entries'.lookup k = some u ∧ SameWays t u) ∨
      entries.lookup k = none ∧ ∃ content, entries'.lookup k = some (.file content)) :
    SameWays (.directory entries) (.directory entries') where
  directories {p found} hfind := by
    cases p with
    | nil => exact ⟨entries', rfl⟩
    | cons k ks =>
        change (entries.lookup k).bind (find? ks) = _ at hfind
        change ∃ found', (entries'.lookup k).bind (find? ks) = _
        rcases h k with hsame | ⟨t, u, ht, hu, hways⟩ | ⟨hnone, content, hfile⟩
        · rw [← hsame]
          exact ⟨found, hfind⟩
        · rw [ht] at hfind
          rw [hu]
          exact hways.directories hfind
        · rw [hnone] at hfind
          exact absurd hfind (by simp)
  links {p target} := by
    cases p with
    | nil => simp [find?]
    | cons k ks =>
        change (entries.lookup k).bind (find? ks) = _ ↔ (entries'.lookup k).bind (find? ks) = _
        rcases h k with hsame | ⟨t, u, ht, hu, hways⟩ | ⟨hnone, content, hfile⟩
        · rw [hsame]
        · rw [ht, hu]
          exact hways.links
        · rw [hnone, hfile]
          rcases find?_file ks content with hf | hf <;> simp [hf]

theorem sameWays_insert {place : Place} {t : FileTree} (h : Takes place t) (content : Bytes) :
    SameWays t (insert (.file content) place t) := by
  induction place generalizing t with
  | nil =>
      cases t with
      | file old => exact sameWays_files old content
      | directory entries => exact absurd h (by simp [Takes])
      | link target => exact absurd h (by simp [Takes])
  | cons name names ih =>
      cases t with
      | file old => exact absurd h (by simp [Takes])
      | link target => exact absurd h (by simp [Takes])
      | directory entries =>
          rw [insert]
          refine sameWays_directory fun k => ?_
          by_cases hk : k = name
          · subst hk
            rw [Takes] at h
            rw [lookup_insertEntry]
            cases hlookup : entries.lookup k with
            | some t =>
                rw [hlookup] at h
                exact .inr (.inl ⟨t, _, rfl, rfl, ih h⟩)
            | none =>
                rw [hlookup] at h
                subst h
                exact .inr (.inr ⟨rfl, content, rfl⟩)
          · exact .inl (lookup_insertEntry_of_ne hk _ entries).symm

theorem find?_concat {t : FileTree} {p : Place} {entries : List (String × FileTree)}
    (h : t.find? p = some (.directory entries)) (name : String) :
    t.find? (p ++ [name]) = entries.lookup name := by
  rw [find?_append, h, Option.bind_some]
  cases hlookup : entries.lookup name <;> simp [find?, child?, hlookup]

theorem SameWays.lookup_link {t u : FileTree} (h : SameWays t u) {p : Place}
    {entries entries' : List (String × FileTree)} (hfind : t.find? p = some (.directory entries))
    (hfind' : u.find? p = some (.directory entries')) (name target : String) :
    entries.lookup name = some (.link target) ↔ entries'.lookup name = some (.link target) := by
  rw [← find?_concat hfind, ← find?_concat hfind', h.links]

theorem SameWays.toLink {t u : FileTree} (h : SameWays t u) {p : Place} {names : List String}
    {halt : Halt Place} (hmake : t.toLink .make p names = .ok halt) :
    u.toLink .find p names = .ok halt := by
  induction names generalizing p with
  | nil => exact hmake
  | cons name names ih =>
      rw [FileTree.toLink] at hmake ⊢
      cases hfind : t.find? p with
      | none => simp [hfind] at hmake
      | some found =>
          cases found with
          | file content => simp [hfind] at hmake
          | link target => simp [hfind] at hmake
          | directory entries =>
              obtain ⟨entries', hfind'⟩ := h.directories hfind
              -- The file may be new here, but every link is an old one.
              have hlink := h.lookup_link hfind hfind' name
              rw [hfind] at hmake
              rw [hfind']
              dsimp only at hmake ⊢
              by_cases hstay : isStay name = true
              · rw [if_pos hstay] at hmake ⊢
                exact ih hmake
              rw [if_neg hstay] at hmake ⊢
              by_cases hup : name = ".."
              · rw [if_pos hup] at hmake ⊢
                exact ih hmake
              rw [if_neg hup] at hmake ⊢
              by_cases hslash : endsInSlash names = true
              · simp [hslash] at hmake
              rw [if_neg (by simp [hslash])] at hmake
              rw [if_neg (by simp)]
              by_cases hlong : isLongName name = true
              · simp [hlong] at hmake
              rw [if_neg hlong] at hmake ⊢
              split at hmake
              · next target htarget =>
                  rw [(hlink target).1 htarget]
                  exact hmake
              · next hother =>
                  split
                  · next target htarget => exact absurd ((hlink target).2 htarget) (hother target)
                  · exact ih hmake

theorem SameWays.followNames {t u : FileTree} (h : SameWays t u) {links : Nat} {p q : Place}
    {names : List String} (hmake : t.followNames .make links p names = .ok q) :
    u.followNames .find links p names = .ok q := by
  induction links generalizing p names with
  | zero =>
      rw [FileTree.followNames] at hmake ⊢
      cases hhalt : t.toLink .make p names with
      | error r => simp [hhalt] at hmake
      | ok halt =>
          rw [h.toLink hhalt]
          rw [hhalt] at hmake
          exact hmake
  | succ links ih =>
      rw [FileTree.followNames] at hmake ⊢
      cases hhalt : t.toLink .make p names with
      | error r => simp [hhalt] at hmake
      | ok halt =>
          rw [h.toLink hhalt]
          rw [hhalt] at hmake
          cases halt with
          | done found => exact hmake
          | link base name target rest => exact ih hmake

theorem contentAt_writeContent {t u : FileTree} {standing : Place} {p : Path} {content : Bytes}
    (h : t.writeContent standing p content = .ok u) : u.contentAt standing p = .ok content := by
  simp only [writeContent, updateFile] at h
  split at h
  · simp at h
  · next hname =>
      split at h
      · simp [refuse] at h
      · next place hfollow =>
          have hput : Takes place t ∧ u = insert (.file content) place t := by
            split at h
            · next old hfile => exact ⟨takes_of_file hfile, (Except.ok.inj h).symm⟩
            · simp [refuse] at h
            · next hnone =>
                split at h
                · next entries hparent =>
                    exact ⟨takes_of_none hnone hparent, (Except.ok.inj h).symm⟩
                · simp [refuse] at h
                · simp [refuse] at h
          obtain ⟨htakes, rfl⟩ := hput
          have hways := sameWays_insert htakes content
          have hfound : (insert (.file content) place t).follow .find standing p = .ok place := by
            rw [follow] at hfollow ⊢
            split at hfollow
            · simp at hfollow
            · next hshort =>
                rw [if_neg hshort]
                exact hways.followNames hfollow
          have hlocate : (insert (.file content) place t).locate standing p =
              .ok (.file content) := by
            simp only [locate, hfound, bind, Except.bind, find?_insert]
            rfl
          rw [contentAt, if_neg hname, hlocate]

end SchemaDiagram.FileTree
