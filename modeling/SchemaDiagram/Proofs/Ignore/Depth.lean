import SchemaDiagram.Ignore.Rules
import SchemaDiagram.Proofs.Ignore.Globs
import SchemaDiagram.Proofs.Text.Lowering
import SchemaDiagram.Proofs.Text.Reading

/-!
How deep the paths lie that a rule applies to. A rule about whole paths spells out the slashes of its
pattern, but its stars, and most of its question marks, may stand for more of them. So it stays at its
own depth only if it has no star and no question mark between two characters that are no slashes.
-/

namespace SchemaDiagram.Ignore

open SchemaDiagram.Glob SchemaDiagram.Text

def components (path : List Char) : Nat :=
  (splitAt '/' path).length

def Relative (path : List Char) : Prop :=
  [] ∉ splitAt '/' path

instance (path : List Char) : Decidable (Relative path) :=
  inferInstanceAs (Decidable ([] ∉ splitAt '/' path))

section

variable {c : Char} {cs front back : List Char}

theorem components_eq (path : List Char) : components path = path.count '/' + 1 := by
  rw [components]
  induction path with
  | nil => rfl
  | cons c cs ih =>
      rw [splitAt]
      split
      · next hc => rw [hc, List.length_cons, ih, List.count_cons_self]
      · next hc =>
          rw [List.count_cons_of_ne hc, ← ih]
          cases hsplit : splitAt '/' cs with
          | nil => exact absurd hsplit (splitAt_ne_nil '/' cs)
          | cons piece pieces => rfl

@[elab_as_elim]
theorem component_induction {motive : List Char → Prop} (cs : List Char)
    (single : ∀ cs, '/' ∉ cs → motive cs)
    (parted : ∀ front back, '/' ∉ front → motive back → motive (front ++ '/' :: back)) :
    motive cs := by
  induction hlength : cs.length using Nat.strongRecOn generalizing cs with
  | ind n ih =>
      by_cases hslash : '/' ∈ cs
      · obtain ⟨front, back, rfl, hfront⟩ := List.eq_append_cons_of_mem hslash
        have hshorter : back.length < n := by
          rw [← hlength, List.length_append, List.length_cons]
          omega
        exact parted front back hfront (ih _ hshorter back rfl)
      · exact single cs hslash

theorem not_relative_nil : ¬ Relative [] := by
  decide

theorem relative_iff_ne_nil (h : '/' ∉ cs) : Relative cs ↔ cs ≠ [] := by
  have hne : ∀ c ∈ cs, c ≠ '/' := fun c hc heq => h (heq ▸ hc)
  rw [Relative, splitAt_of_forall_ne hne, List.mem_singleton, ne_comm]

theorem relative_append_slash :
    Relative (front ++ '/' :: back) ↔ Relative front ∧ Relative back := by
  rw [Relative, splitAt_append_cons, List.mem_append, not_or]
  rfl

theorem relative_front (h : Relative (front ++ c :: back)) (hc : c ≠ '/') :
    Relative (front ++ [c]) := by
  induction front using component_induction with
  | single front hfront =>
      refine (relative_iff_ne_nil ?_).2 (by simp)
      simp [hfront, hc.symm]
  | parted first rest hfirst ih =>
      rw [List.append_assoc, List.cons_append, relative_append_slash] at h ⊢
      exact ⟨h.1, ih h.2⟩

theorem relative_back (h : Relative (front ++ c :: back)) (hc : c ≠ '/') : Relative (c :: back) := by
  induction front using component_induction with
  | single front hfront =>
      induction back using component_induction with
      | single back hback =>
          refine (relative_iff_ne_nil ?_).2 (List.cons_ne_nil c back)
          simp [hback, hc.symm]
      | parted first rest hfirst =>
          rw [← List.cons_append, ← List.append_assoc, relative_append_slash] at h
          rw [← List.cons_append, relative_append_slash]
          refine ⟨(relative_iff_ne_nil ?_).2 (List.cons_ne_nil c first), h.2⟩
          simp [hfirst, hc.symm]
  | parted first rest hfirst ih =>
      rw [List.append_assoc, List.cons_append, relative_append_slash] at h
      exact ih h.2

end

/-- A question mark that a slash may stand at, as it is neither at an end nor beside a slash. -/
def Parting (pattern : List Char) : Prop :=
  ∃ before c d after, pattern = before ++ c :: '?' :: d :: after ∧ c ≠ '/' ∧ d ≠ '/'

section

variable {pattern path taken front back : List Char}

theorem exists_takes_pieceOf (c : Char) : ∃ taken, (pieceOf c).Takes [c] taken := by
  rw [pieceOf.eq_def]
  split
  · exact ⟨_, .run _⟩
  · exact ⟨_, .one _⟩
  · exact ⟨_, .literal _⟩

theorem exists_standFor_self (pattern : List Char) :
    ∃ taken, StandFor (pattern.map pieceOf) pattern taken := by
  induction pattern with
  | nil => exact ⟨[], .nil⟩
  | cons c pattern ih =>
      obtain ⟨took, htakes⟩ := exists_takes_pieceOf c
      obtain ⟨more, hmore⟩ := ih
      exact ⟨took ++ more, .cons htakes hmore⟩

theorem exists_standFor_between {c : Char} {part took : List Char}
    (h : (pieceOf c).Takes part took) (front back : List Char) :
    ∃ taken, StandFor ((front ++ c :: back).map pieceOf) (front ++ (part ++ back)) taken := by
  obtain ⟨before, hbefore⟩ := exists_standFor_self front
  obtain ⟨after, hafter⟩ := exists_standFor_self back
  rw [List.map_append, List.map_cons]
  exact ⟨_, standFor_append_iff.2 ⟨_, _, _, _, rfl, rfl, hbefore, .cons h hafter⟩⟩

theorem count_spelled (pattern : List Char) :
    ((pattern.map pieceOf).flatMap Piece.spelled).count '/' = pattern.count '/' := by
  induction pattern with
  | nil => rfl
  | cons c pattern ih =>
      rw [List.map_cons, List.flatMap_cons, List.count_append, ih, pieceOf.eq_def]
      split
      · simp [Piece.spelled]
      · simp [Piece.spelled]
      · rw [Piece.spelled, List.count_singleton, List.count_cons, Nat.add_comm]

theorem components_of_standFor (h : StandFor (pattern.map pieceOf) path taken) :
    components path = components pattern + taken.count '/' := by
  rw [components_eq, components_eq, h.count '/', count_spelled]
  omega

theorem standFor_slash_iff : StandFor ((front ++ '/' :: back).map pieceOf) path taken ↔
    ∃ before after took more, path = before ++ '/' :: after ∧ taken = took ++ more ∧
      StandFor (front.map pieceOf) before took ∧ StandFor (back.map pieceOf) after more := by
  have hslash : pieceOf '/' = .literal '/' := rfl
  rw [List.map_append, List.map_cons, hslash, standFor_append_iff]
  constructor
  · rintro ⟨before, rest, took, more, rfl, rfl, hbefore, hrest⟩
    obtain ⟨after, rfl, hafter⟩ := standFor_literal_cons_iff.1 hrest
    exact ⟨before, after, took, more, rfl, rfl, hbefore, hafter⟩
  · rintro ⟨before, after, took, more, rfl, rfl, hbefore, hafter⟩
    exact ⟨before, _, took, more, rfl, rfl, hbefore,
      standFor_literal_cons_iff.2 ⟨after, rfl, hafter⟩⟩

theorem relative_of_standFor (h : StandFor (pattern.map pieceOf) path taken) (hpath : Relative path) :
    Relative pattern := by
  induction pattern using component_induction generalizing path taken with
  | single pattern hpattern =>
      refine (relative_iff_ne_nil hpattern).2 ?_
      rintro rfl
      obtain ⟨rfl, -⟩ := standFor_nil_iff.1 h
      exact not_relative_nil hpath
  | parted front back hfront ih =>
      obtain ⟨before, after, took, more, rfl, -, hbefore, hafter⟩ := standFor_slash_iff.1 h
      rw [relative_append_slash] at hpath ⊢
      refine ⟨(relative_iff_ne_nil hfront).2 ?_, ih hafter hpath.2⟩
      rintro rfl
      obtain ⟨rfl, -⟩ := standFor_nil_iff.1 hbefore
      exact not_relative_nil hpath.1

theorem exists_concat_of_standFor (h : StandFor (pattern.map pieceOf) path taken)
    (hpath : Relative path) : ∃ before c, pattern = before ++ [c] ∧ c ≠ '/' := by
  have hpattern := relative_of_standFor h hpath
  rcases List.eq_nil_or_concat pattern with rfl | ⟨before, c, rfl⟩
  · exact absurd hpattern not_relative_nil
  · refine ⟨before, c, List.concat_eq_append .., ?_⟩
    rintro rfl
    rw [List.concat_eq_append, relative_append_slash] at hpattern
    exact not_relative_nil hpattern.2

theorem exists_cons_of_standFor (h : StandFor (pattern.map pieceOf) path taken)
    (hpath : Relative path) : ∃ d after, pattern = d :: after ∧ d ≠ '/' := by
  have hpattern := relative_of_standFor h hpath
  cases pattern with
  | nil => exact absurd hpattern not_relative_nil
  | cons d after =>
      refine ⟨d, after, rfl, ?_⟩
      rintro rfl
      rw [← List.nil_append ('/' :: after), relative_append_slash] at hpattern
      exact not_relative_nil hpattern.1

theorem star_or_parting (h : StandFor (pattern.map pieceOf) path taken) (hpath : Relative path)
    (hslash : '/' ∈ taken) : '*' ∈ pattern ∨ Parting pattern := by
  obtain ⟨before, p, after, first, part, took, last, hpieces, rfl, hp, htook, ⟨_, hbefore⟩,
    ⟨_, hafter⟩⟩ := exists_piece_of_mem h hslash
  obtain ⟨front, behind, rfl, rfl, hbehind⟩ := List.map_eq_append_iff.1 hpieces
  obtain ⟨c, back, rfl, rfl, rfl⟩ := List.map_eq_cons_iff.1 hbehind
  -- A question mark that stands for a slash parts the path into two relative ones.
  by_cases hstar : c = '*'
  · exact .inl (by simp [hstar])
  by_cases hmark : c = '?'
  · subst hmark
    obtain ⟨d⟩ : Piece.one.Takes part took := hp
    obtain rfl := List.mem_singleton.1 htook
    rw [List.append_assoc, List.singleton_append, relative_append_slash] at hpath
    obtain ⟨before, c, rfl, hc⟩ := exists_concat_of_standFor hbefore hpath.1
    obtain ⟨d, after, rfl, hd⟩ := exists_cons_of_standFor hafter hpath.2
    exact .inr ⟨before, c, d, after, by simp, hc, hd⟩
  · rw [pieceOf_eq hstar hmark] at hp
    cases hp
    exact absurd htook List.not_mem_nil

theorem exists_deeper (hpattern : Relative pattern) (h : '*' ∈ pattern ∨ Parting pattern) :
    ∃ path taken, Relative path ∧ StandFor (pattern.map pieceOf) path taken ∧
      components path ≠ components pattern := by
  rcases h with hstar | ⟨before, c, d, after, rfl, hc, hd⟩
  · obtain ⟨front, back, rfl⟩ := List.append_of_mem hstar
    have hfront : Relative (front ++ ['*']) := relative_front hpattern (by decide)
    have hback : Relative ('*' :: back) := relative_back hpattern (by decide)
    obtain ⟨taken, hstand⟩ := exists_standFor_between (c := '*') (.run ['*', '/', '*']) front back
    refine ⟨front ++ ['*'] ++ '/' :: ('*' :: back), taken, relative_append_slash.2 ⟨hfront, hback⟩,
      ?_, ?_⟩
    · simpa using hstand
    · simp [components_eq]
  · have hfront : Relative (before ++ [c]) := relative_front hpattern hc
    have hrest : Relative (before ++ [c, '?'] ++ d :: after) := by simpa using hpattern
    have hback : Relative (d :: after) := relative_back hrest hd
    obtain ⟨taken, hstand⟩ :=
      exists_standFor_between (c := '?') (.one '/') (before ++ [c]) (d :: after)
    refine ⟨before ++ [c] ++ '/' :: (d :: after), taken, relative_append_slash.2 ⟨hfront, hback⟩,
      ?_, ?_⟩
    · simpa using hstand
    · simp [components_eq, hc, hd]

end

def unmarked (line : List Char) : List Char :=
  match trim line with
  | '!' :: cs => cs
  | cs => cs

def body (line : List Char) : List Char :=
  dropRightWhile Rule.isSlash (unmarked line)

def bare (line : List Char) : List Char :=
  (body line).dropWhile Rule.isSlash

def Rule.KeepsDepth (r : Rule) (pattern : List Char) : Prop :=
  ∀ path isDirectory, Relative path → r.applies path isDirectory = true →
    components path = components pattern

section

variable {line : List Char} {r : Rule}

theorem ofLine?_eq_some (h : Rule.ofLine? line = some r) : r.glob = .ofText (bare line) ∧
    r.anchored = (body line).any Rule.isSlash ∧ bare line ≠ [] := by
  have htext : ∀ negated cs, unmarked line = cs → Rule.ofLine?.ofText? negated cs = some r →
      r.glob = .ofText (bare line) ∧ r.anchored = (body line).any Rule.isSlash ∧ bare line ≠ [] := by
    rintro negated _ rfl hr
    rw [Rule.ofLine?.ofText?] at hr
    split at hr
    · simp at hr
    · next hne =>
        obtain rfl := Option.some.inj hr
        exact ⟨rfl, rfl, hne⟩
  rw [Rule.ofLine?] at h
  split at h
  · simp at h
  · simp at h
  · next cs hcs => exact htext true cs (by simp only [unmarked, hcs]) h
  · next hmark =>
      refine htext false _ ?_ h
      rw [unmarked]
      split
      · next cs hcs => exact absurd hcs (hmark cs)
      · rfl

theorem mem_of_mem_bare {c : Char} (h : c ∈ bare line) : c ∈ line := by
  have hbody : c ∈ body line := (List.dropWhile_sublist _).subset h
  have hunmarked : c ∈ unmarked line :=
    List.mem_reverse.1 ((List.dropWhile_sublist _).subset (List.mem_reverse.1 hbody))
  have htrim : c ∈ trim line := by
    rw [unmarked] at hunmarked
    split at hunmarked
    · next hcs => rw [hcs]; exact List.mem_cons_of_mem _ hunmarked
    · exact hunmarked
  have hleft := (List.dropWhile_sublist isBlank).subset (List.mem_reverse.1 htrim)
  exact (List.dropWhile_sublist isBlank).subset (List.mem_reverse.1 hleft)

theorem any_isSlash_iff {cs : List Char} : cs.any Rule.isSlash = true ↔ '/' ∈ cs := by
  simp [Rule.isSlash]

theorem applies_iff (hrule : Rule.ofLine? line = some r) (hbracket : '[' ∉ line) (path : List Char)
    (isDirectory : Bool) : r.applies path isDirectory = true ↔
      (isDirectory = true ∨ r.directoriesOnly = false) ∧
        ∃ taken, StandFor ((bare line).map pieceOf)
          (if '/' ∈ body line then path else baseName path) taken := by
  obtain ⟨hglob, hanchored, -⟩ := ofLine?_eq_some hrule
  have hbare : '[' ∉ bare line := fun h => hbracket (mem_of_mem_bare h)
  simp only [Rule.applies, hglob, hanchored, Bool.and_eq_true, Bool.or_eq_true, Bool.not_eq_true',
    accepts_iff, pieces_ofText hbare, any_isSlash_iff]

theorem exists_deeper_name (hrule : Rule.ofLine? line = some r) (hbracket : '[' ∉ line)
    (hname : '/' ∉ body line) : ¬ r.KeepsDepth (bare line) := by
  intro hkeeps
  have hbare : '/' ∉ bare line := fun h => hname ((List.dropWhile_sublist _).subset h)
  obtain ⟨taken, hstand⟩ := exists_standFor_self (bare line)
  have hpath : Relative (['x'] ++ '/' :: bare line) := by
    rw [relative_append_slash, relative_iff_ne_nil hbare]
    exact ⟨by decide, (ofLine?_eq_some hrule).2.2⟩
  have happlies : r.applies (['x'] ++ '/' :: bare line) true = true := by
    refine (applies_iff hrule hbracket _ _).2 ⟨.inl rfl, taken, ?_⟩
    rw [if_neg hname, baseName_append hbare]
    exact hstand
  have hcomponents := hkeeps _ _ hpath happlies
  simp [components_eq] at hcomponents

theorem keepsDepth_iff (hrule : Rule.ofLine? line = some r) (hbracket : '[' ∉ line) :
    (∀ path isDirectory, '/' ∈ body line → r.applies path isDirectory = true →
      ∃ taken, StandFor ((bare line).map pieceOf) path taken ∧
        components path = components (bare line) + taken.count '/') ∧
    (r.KeepsDepth (bare line) ↔ '/' ∈ body line ∧
      (¬ Relative (bare line) ∨ '*' ∉ bare line ∧ ¬ Parting (bare line))) := by
  have hstands : ∀ path isDirectory, '/' ∈ body line → r.applies path isDirectory = true →
      ∃ taken, StandFor ((bare line).map pieceOf) path taken := by
    intro path isDirectory hslash happlies
    obtain ⟨-, taken, hstand⟩ := (applies_iff hrule hbracket path isDirectory).1 happlies
    rw [if_pos hslash] at hstand
    exact ⟨taken, hstand⟩
  refine ⟨fun path isDirectory hslash happlies => ?_, fun hkeeps => ?_, ?_⟩
  · obtain ⟨taken, hstand⟩ := hstands path isDirectory hslash happlies
    exact ⟨taken, hstand, components_of_standFor hstand⟩
  · have hslash : '/' ∈ body line := by
      by_contra hname
      exact exists_deeper_name hrule hbracket hname hkeeps
    refine ⟨hslash, or_iff_not_imp_left.2 fun hrelative => not_or.1 fun hwild => ?_⟩
    obtain ⟨path, taken, hpath, hstand, hdeeper⟩ := exists_deeper (not_not.1 hrelative) hwild
    refine hdeeper (hkeeps path true hpath ((applies_iff hrule hbracket _ _).2 ⟨.inl rfl, taken, ?_⟩))
    rw [if_pos hslash]
    exact hstand
  · rintro ⟨hslash, hpattern⟩ path isDirectory hpath happlies
    obtain ⟨taken, hstand⟩ := hstands path isDirectory hslash happlies
    have hnone : '/' ∉ taken := by
      intro hmem
      rcases hpattern with hempty | ⟨hstar, hparting⟩
      · exact hempty (relative_of_standFor hstand hpath)
      · exact (star_or_parting hstand hpath hmem).elim hstar hparting
    rw [components_of_standFor hstand, List.count_eq_zero_of_not_mem hnone, Nat.add_zero]

end

def versionLine : List Char :=
  " !/docs/?/in.md/ ".toList

def versionRule : Rule :=
  { glob := .ofText "docs/?/in.md".toList, negated := true, directoriesOnly := true, anchored := true }

theorem version_keepsDepth : Rule.ofLine? versionLine = some versionRule ∧ '[' ∉ versionLine ∧
    versionRule.KeepsDepth "docs/?/in.md".toList := by
  have hrule : Rule.ofLine? versionLine = some versionRule := by decide +kernel
  have hbracket : '[' ∉ versionLine := by decide +kernel
  have hslash : '/' ∈ body versionLine := by decide +kernel
  have hstar : '*' ∉ bare versionLine := by decide +kernel
  have hparting : ¬ Parting (bare versionLine) := by
    rintro ⟨before, c, d, after, hpattern, hc, -⟩
    -- The only question mark has a slash in front.
    have hsplit : "docs/".toList ++ '?' :: "/in.md".toList = before ++ [c] ++ '?' :: d :: after := by
      rw [List.append_assoc, List.singleton_append, ← hpattern]
      decide +kernel
    obtain ⟨hfront, -⟩ :=
      (List.append_cons_inj_of_notMem (by decide +kernel) (by decide +kernel)).1 hsplit
    have hlast := congrArg List.getLast? hfront
    simp at hlast
    exact hc hlast.symm
  exact ⟨hrule, hbracket, (keepsDepth_iff hrule hbracket).2.2 ⟨hslash, .inr ⟨hstar, hparting⟩⟩⟩

theorem docs_hide_deeper :
    (∃ r, Rule.ofLine? "docs/*.md".toList = some r ∧
      r.applies "docs/guide/intro.md".toList false = true) ∧
    '/' ∈ body "docs/*.md".toList ∧ ¬ ['*', '*'] <:+: "docs/*.md".toList ∧
    '[' ∉ "docs/*.md".toList ∧ Relative "docs/guide/intro.md".toList ∧
    components "docs/guide/intro.md".toList ≠ components (bare "docs/*.md".toList) ∧
    (IgnoreRules.ofLines ["docs/*.md".toList]).ignores "docs/guide/intro.md".toList false = true := by
  refine ⟨⟨_, rfl, ?_⟩, ?_, ?_, ?_, ?_, ?_, ?_⟩ <;> decide +kernel

end SchemaDiagram.Ignore
