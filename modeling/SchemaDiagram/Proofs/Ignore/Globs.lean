import Mathlib.Data.List.Basic
import SchemaDiagram.Ignore.Glob

/-!
What a glob pattern stands for. Its pieces stand for parts of the text, one behind the other: a run for
any part, a literal for its character, and every other piece for one character.
-/

namespace SchemaDiagram.Glob

/-- Whether a piece stands for a part of a text, and how much of the part it does not spell out. -/
inductive Piece.Takes : Piece → List Char → List Char → Prop where
  | run (part : List Char) : Takes .run part part
  | one (c : Char) : Takes .one [c] [c]
  | literal (c : Char) : Takes (.literal c) [c] []
  | oneOf {k : CharClass} {c : Char} : k.accepts c = true → Takes (.oneOf k) [c] [c]

inductive StandFor : List Piece → List Char → List Char → Prop where
  | nil : StandFor [] [] []
  | cons {p : Piece} {ps : List Piece} {part taken cs more : List Char} :
      p.Takes part taken → StandFor ps cs more → StandFor (p :: ps) (part ++ cs) (taken ++ more)

section

variable {p : Piece} {ps qs : List Piece} {part taken cs ds : List Char} {c : Char}

theorem standFor_nil_iff : StandFor [] cs taken ↔ cs = [] ∧ taken = [] := by
  constructor
  · rintro ⟨⟩
    exact ⟨rfl, rfl⟩
  · rintro ⟨rfl, rfl⟩
    exact .nil

theorem standFor_cons_iff : StandFor (p :: ps) cs taken ↔
    ∃ part rest took more, cs = part ++ rest ∧ taken = took ++ more ∧
      p.Takes part took ∧ StandFor ps rest more := by
  constructor
  · rintro (_ | ⟨hp, hrest⟩)
    exact ⟨_, _, _, _, rfl, rfl, hp, hrest⟩
  · rintro ⟨part, rest, took, more, rfl, rfl, hp, hrest⟩
    exact .cons hp hrest

theorem standFor_append_iff : StandFor (ps ++ qs) cs taken ↔
    ∃ front back took more, cs = front ++ back ∧ taken = took ++ more ∧
      StandFor ps front took ∧ StandFor qs back more := by
  constructor
  · intro h
    induction ps generalizing cs taken with
    | nil => exact ⟨[], cs, [], taken, rfl, rfl, .nil, h⟩
    | cons p ps ih =>
        obtain ⟨part, rest, took, more, rfl, rfl, hp, hrest⟩ := standFor_cons_iff.1 h
        obtain ⟨front, back, took', more', rfl, rfl, hfront, hback⟩ := ih hrest
        exact ⟨part ++ front, back, took ++ took', more', (List.append_assoc ..).symm,
          (List.append_assoc ..).symm, .cons hp hfront, hback⟩
  · rintro ⟨front, back, took, more, rfl, rfl, hfront, hback⟩
    induction hfront with
    | nil => exact hback
    | cons hp _ ih =>
        rw [List.append_assoc, List.append_assoc]
        exact .cons hp ih

theorem standFor_literal_cons_iff : StandFor (.literal c :: ps) cs taken ↔
    ∃ rest, cs = c :: rest ∧ StandFor ps rest taken := by
  rw [standFor_cons_iff]
  constructor
  · rintro ⟨part, rest, took, more, rfl, rfl, ⟨⟩, hrest⟩
    exact ⟨rest, rfl, hrest⟩
  · rintro ⟨rest, rfl, hrest⟩
    exact ⟨[c], rest, [], taken, rfl, rfl, .literal c, hrest⟩

theorem exists_piece_of_mem (h : StandFor ps cs taken) (hc : c ∈ taken) :
    ∃ before p after front part took back,
      ps = before ++ p :: after ∧ cs = front ++ part ++ back ∧ p.Takes part took ∧ c ∈ took ∧
        (∃ more, StandFor before front more) ∧ ∃ more, StandFor after back more := by
  induction h with
  | nil => exact absurd hc List.not_mem_nil
  | @cons p ps part took rest more hp hrest ih =>
      rcases List.mem_append.1 hc with hc | hc
      · exact ⟨[], p, ps, [], part, took, rest, rfl, rfl, hp, hc, ⟨[], .nil⟩, more, hrest⟩
      · obtain ⟨before, q, after, front, inner, took', back, rfl, rfl, hq, hc, ⟨more', hbefore⟩,
          hafter⟩ := ih hc
        refine ⟨p :: before, q, after, part ++ front, inner, took', back, rfl, ?_, hq, hc,
          ⟨_, .cons hp hbefore⟩, hafter⟩
        simp only [List.append_assoc]

def Piece.spelled : Piece → List Char
  | .literal c => [c]
  | _ => []

theorem Piece.Takes.count (h : p.Takes part taken) (c : Char) :
    part.count c = p.spelled.count c + taken.count c := by
  cases h <;> simp [Piece.spelled]

theorem StandFor.count (h : StandFor ps cs taken) (c : Char) :
    cs.count c = (ps.flatMap Piece.spelled).count c + taken.count c := by
  induction h with
  | nil => rfl
  | cons hp _ ih =>
      rw [List.flatMap_cons, List.count_append, List.count_append, List.count_append, hp.count c, ih]
      omega

def Nested (rests : List (List Char)) : Prop :=
  rests.Pairwise fun longer shorter => shorter <:+ longer

theorem nested_suffixes (cs : List Char) : Nested (suffixes cs) := by
  induction cs with
  | nil => exact List.pairwise_singleton _ _
  | cons c cs ih =>
      exact List.pairwise_cons.2
        ⟨fun rest h => (mem_suffixes.1 h).trans (List.suffix_cons c cs), ih⟩

def readOne (p : Piece) : List Char → Option (List Char)
  | [] => none
  | c :: cs => if p.accepts c then some cs else none

theorem readOne_eq_some_iff {rest : List Char} :
    readOne p cs = some rest ↔ ∃ c, p.accepts c = true ∧ cs = c :: rest := by
  cases cs with
  | nil => simp [readOne]
  | cons c cs => simp [readOne]

theorem remainders_of_ne_run (hp : p ≠ .run) (rests : List (List Char)) :
    p.remainders rests = rests.filterMap (readOne p) := by
  cases p with
  | run => exact absurd rfl hp
  | _ =>
      refine List.filterMap_congr fun cs _ => ?_
      cases cs <;> rfl

theorem takes_iff_of_ne_run (hp : p ≠ .run) :
    (∃ taken, p.Takes part taken) ↔ ∃ c, p.accepts c = true ∧ part = [c] := by
  constructor
  · rintro ⟨taken, ⟨⟩ | ⟨c⟩ | ⟨c⟩ | ⟨hc⟩⟩
    · exact absurd rfl hp
    · exact ⟨c, rfl, rfl⟩
    · exact ⟨c, by simp [Piece.accepts], rfl⟩
    · exact ⟨_, hc, rfl⟩
  · rintro ⟨c, hc, rfl⟩
    cases p with
    | run => exact absurd rfl hp
    | one => exact ⟨_, .one c⟩
    | literal d =>
        obtain rfl : c = d := by simpa [Piece.accepts] using hc
        exact ⟨_, .literal c⟩
    | oneOf k => exact ⟨_, .oneOf hc⟩

theorem mem_remainders {rests : List (List Char)} (h : Nested rests) {rest : List Char} :
    rest ∈ p.remainders rests ↔ ∃ part taken, p.Takes part taken ∧ part ++ rest ∈ rests := by
  by_cases hp : p = .run
  · subst hp
    cases rests with
    | nil => simp [Piece.remainders]
    | cons longest more =>
        have hlongest : ∀ cs ∈ longest :: more, cs <:+ longest := by
          intro cs hcs
          rcases List.mem_cons.1 hcs with rfl | hcs
          · exact List.suffix_refl _
          · exact (List.pairwise_cons.1 h).1 cs hcs
        refine mem_suffixes.trans ⟨?_, ?_⟩
        · rintro ⟨part, rfl⟩
          exact ⟨part, part, .run part, List.mem_cons_self⟩
        · rintro ⟨part, -, -, hmem⟩
          exact (List.suffix_append part rest).trans (hlongest _ hmem)
  · rw [remainders_of_ne_run hp, List.mem_filterMap]
    constructor
    · rintro ⟨cs, hmem, hread⟩
      obtain ⟨c, hc, rfl⟩ := readOne_eq_some_iff.1 hread
      obtain ⟨taken, htakes⟩ := (takes_iff_of_ne_run hp).2 ⟨c, hc, rfl⟩
      exact ⟨[c], taken, htakes, hmem⟩
    · rintro ⟨part, taken, htakes, hmem⟩
      obtain ⟨c, hc, rfl⟩ := (takes_iff_of_ne_run hp).1 ⟨taken, htakes⟩
      exact ⟨c :: rest, hmem, readOne_eq_some_iff.2 ⟨c, hc, rfl⟩⟩

theorem nested_remainders {rests : List (List Char)} (h : Nested rests) :
    Nested (p.remainders rests) := by
  by_cases hp : p = .run
  · subst hp
    cases rests with
    | nil => exact List.Pairwise.nil
    | cons longest more => exact nested_suffixes longest
  · rw [remainders_of_ne_run hp]
    refine h.filterMap _ fun longer shorter hsuffix rest hrest rest' hrest' => ?_
    obtain ⟨c, -, rfl⟩ := readOne_eq_some_iff.1 hrest
    obtain ⟨d, -, rfl⟩ := readOne_eq_some_iff.1 hrest'
    rcases List.suffix_cons_iff.1 hsuffix with heq | hsuffix
    · exact (List.cons.inj heq).2 ▸ List.suffix_refl _
    · exact (List.suffix_cons d rest').trans hsuffix

theorem nil_mem_foldl_remainders {rests : List (List Char)} (h : Nested rests) :
    [] ∈ ps.foldl (fun rests p => p.remainders rests) rests ↔
      ∃ cs ∈ rests, ∃ taken, StandFor ps cs taken := by
  -- A run leaves the ends of the longest text only, which are all there are as the texts are nested.
  induction ps generalizing rests with
  | nil => simp [standFor_nil_iff]
  | cons p ps ih =>
      rw [List.foldl_cons, ih (nested_remainders h)]
      constructor
      · rintro ⟨rest, hrest, more, hstand⟩
        obtain ⟨part, taken, htakes, hmem⟩ := (mem_remainders h).1 hrest
        exact ⟨_, hmem, _, .cons htakes hstand⟩
      · rintro ⟨cs, hmem, taken, hstand⟩
        obtain ⟨part, rest, took, more, rfl, rfl, htakes, hrest⟩ := standFor_cons_iff.1 hstand
        exact ⟨rest, (mem_remainders h).2 ⟨part, took, htakes, hmem⟩, more, hrest⟩

theorem accepts_iff {g : Glob} : g.accepts cs = true ↔ ∃ taken, StandFor g.pieces cs taken := by
  have hnil : ∀ rests : List (List Char), rests.any List.isEmpty = true ↔ [] ∈ rests := by simp
  rw [accepts, hnil, nil_mem_foldl_remainders (List.pairwise_singleton _ _)]
  simp

def pieceOf : Char → Piece
  | '*' => .run
  | '?' => .one
  | c => .literal c

theorem pieceOf_eq (hrun : c ≠ '*') (hone : c ≠ '?') : pieceOf c = .literal c := by
  rw [pieceOf.eq_def]
  split
  · exact absurd rfl hrun
  · exact absurd rfl hone
  · rfl

theorem piecesFrom_eq_map {fuel : Nat} (hfuel : cs.length ≤ fuel) (h : '[' ∉ cs) :
    piecesFrom fuel cs = cs.map pieceOf := by
  induction cs generalizing fuel with
  | nil => cases fuel <;> rfl
  | cons c cs ih =>
      obtain ⟨fuel, rfl⟩ := Nat.exists_eq_succ_of_ne_zero (Nat.ne_zero_of_lt hfuel)
      have hrest := ih (Nat.le_of_succ_le_succ hfuel) fun hmem => h (List.mem_cons_of_mem c hmem)
      rw [piecesFrom.eq_def, List.map_cons, ← hrest]
      dsimp only
      split
      · rfl
      · rfl
      · exact absurd List.mem_cons_self h
      · next hrun hone _ => rw [pieceOf_eq hrun hone]

theorem pieces_ofText (h : '[' ∉ cs) : (ofText cs).pieces = cs.map pieceOf :=
  piecesFrom_eq_map (Nat.le_refl _) h

end

end SchemaDiagram.Glob
