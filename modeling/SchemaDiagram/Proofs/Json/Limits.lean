import SchemaDiagram.Json.Limit
import SchemaDiagram.Proofs.Decimal.Order
import SchemaDiagram.Proofs.Json.Lawful
import SchemaDiagram.Text.Scan

/-!
Texts that may be JSON and still are not read: one that is refused for its numbers has a run of more
digits than an integer may have, and one that is refused for its depth opens more brackets than may
lie in each other.
-/

namespace SchemaDiagram.Json

section

variable {cs rest : List Char}

theorem skipSpace_suffix (cs : List Char) : skipSpace cs <:+ cs :=
  List.dropWhile_suffix isSpace

theorem suffix_of_constant? {v : Json} (h : constant? cs = some (v, rest)) : rest <:+ cs := by
  obtain ⟨⟨word, w⟩, -, hword⟩ := List.exists_of_findSome?_eq_some h
  obtain ⟨left, hleft, heq⟩ := Option.map_eq_some_iff.1 hword
  obtain ⟨-, rfl⟩ := Prod.mk.inj heq
  exact ⟨word.toList, Text.isPrefixOf?_eq_some_iff.1 hleft⟩

theorem suffix_unsigned (cs : List Char) : (unsigned cs).2 <:+ cs := by
  rw [unsigned.eq_def]
  split
  · exact List.suffix_cons _ _
  · exact List.suffix_refl cs

theorem suffix_wholeDigits (cs : List Char) : (wholeDigits cs).2 <:+ cs := by
  rw [wholeDigits.eq_def]
  split
  · exact List.suffix_cons _ _
  · exact List.dropWhile_suffix _

theorem suffix_fractionDigits (cs : List Char) : (fractionDigits cs).2 <:+ cs := by
  rw [fractionDigits.eq_def]
  split
  · split
    · exact (List.dropWhile_suffix _).trans (List.suffix_cons _ _)
    · exact List.suffix_refl _
  · exact List.suffix_refl cs

theorem suffix_signed (cs : List Char) : (Numeral.signed cs).2 <:+ cs := by
  rw [Numeral.signed.eq_def]
  split
  · exact List.suffix_cons _ _
  · exact List.suffix_cons _ _
  · exact List.suffix_refl cs

theorem suffix_of_exponentPart? {e : Int} (h : exponentPart? cs = some (e, rest)) :
    rest <:+ cs := by
  cases cs with
  | nil => simp [exponentPart?] at h
  | cons c cs =>
      simp only [exponentPart?] at h
      split at h
      · split at h
        · simp at h
        · obtain ⟨-, rfl⟩ := Prod.mk.inj (Option.some.inj h)
          exact (List.dropWhile_suffix _).trans ((suffix_signed cs).trans (List.suffix_cons c cs))
      · simp at h

theorem suffix_of_number? {found : Except Problem Json} (h : number? cs = some (found, rest)) :
    rest <:+ cs := by
  have hfraction : (fractionDigits (wholeDigits (unsigned cs).2).2).2 <:+ cs :=
    (suffix_fractionDigits _).trans ((suffix_wholeDigits _).trans (suffix_unsigned cs))
  simp only [number?] at h
  split at h
  · simp at h
  · split at h
    · split at h
      · obtain ⟨-, rfl⟩ := Prod.mk.inj (Option.some.inj h)
        exact hfraction
      · obtain ⟨-, rfl⟩ := Prod.mk.inj (Option.some.inj h)
        exact hfraction
    · obtain ⟨-, rfl⟩ := Prod.mk.inj (Option.some.inj h)
      cases hexponent : exponentPart? (fractionDigits (wholeDigits (unsigned cs).2).2).2 with
      | none => exact hfraction
      | some found => exact (suffix_of_exponentPart? hexponent).trans hfraction

theorem suffix_of_scalar {v : Json} (h : scalar cs = .ok (v, rest)) : rest <:+ cs := by
  rw [scalar] at h
  split at h
  · next found hfound =>
      obtain rfl := Except.ok.inj h
      exact suffix_of_constant? hfound
  · split at h
    · next hnumber =>
        obtain ⟨rfl, rfl⟩ := Prod.mk.inj (Except.ok.inj h)
        exact suffix_of_number? hnumber
    · simp at h
    · simp at h

theorem suffix_of_hexFour? {n : Nat} (h : hexFour? cs = some (n, rest)) : rest <:+ cs := by
  rw [hexFour?.eq_def] at h
  split at h
  · next a b c d e cs =>
      simp only [Option.bind_eq_bind, Option.bind_eq_some_iff, pure] at h
      obtain ⟨_, -, _, -, _, -, _, -, h⟩ := h
      obtain ⟨-, rfl⟩ := Prod.mk.inj (Option.some.inj h)
      exact List.suffix_append [a, b, c, d] (e :: cs)
  · simp at h

theorem suffix_of_joinSurrogates? {high n : Nat} (h : joinSurrogates? high cs = some (n, rest)) :
    rest <:+ cs := by
  rw [joinSurrogates?.eq_def] at h
  split at h
  · next cs =>
      simp only [Option.bind_eq_bind, Option.bind_eq_some_iff] at h
      obtain ⟨⟨low, behind⟩, hlow, h⟩ := h
      dsimp only at h
      split at h
      · obtain ⟨-, rfl⟩ := Prod.mk.inj (Option.some.inj h)
        exact (suffix_of_hexFour? hlow).trans (List.suffix_append ['\\', 'u'] cs)
      · simp at h
  · simp at h

theorem suffix_of_getD {high n : Nat} (h : (joinSurrogates? high cs).getD (high, cs) = (n, rest)) :
    rest <:+ cs := by
  cases hjoin : joinSurrogates? high cs with
  | none =>
      rw [hjoin] at h
      obtain ⟨-, rfl⟩ := Prod.mk.inj h
      exact List.suffix_refl cs
  | some found =>
      rw [hjoin] at h
      obtain rfl : found = (n, rest) := h
      exact suffix_of_joinSurrogates? hjoin

theorem map_map_eq_ok_some {ε α β : Type} {f : α → β} {x : Except ε (Option α)} {b : β}
    (h : x.map (·.map f) = .ok (some b)) : ∃ a, x = .ok (some a) ∧ f a = b := by
  obtain ⟨found, rfl, hfound⟩ := map_eq_ok_iff.1 h
  obtain ⟨a, rfl, rfl⟩ := Option.map_eq_some_iff.1 hfound
  exact ⟨a, rfl, rfl⟩

theorem suffix_of_stringBody [Platform] {fuel : Nat} {s : List Char}
    (h : stringBody fuel cs = .ok (some (s, rest))) : rest <:+ cs := by
  induction fuel generalizing cs s with
  | zero => simp [stringBody] at h
  | succ fuel ih =>
      cases cs with
      | nil => simp [stringBody] at h
      | cons c cs =>
          rw [stringBody.eq_def] at h
          dsimp only at h
          split at h
          · obtain ⟨-, rfl⟩ := Prod.mk.inj (Option.some.inj (Except.ok.inj h))
            exact List.suffix_cons c cs
          · split at h
            · split at h
              · simp at h
              · split at h
                · simp at h
                · next hfour =>
                    obtain ⟨found, hfound, heq⟩ := map_map_eq_ok_some h
                    obtain ⟨-, rfl⟩ := Prod.mk.inj heq
                    exact (ih hfound).trans ((suffix_of_getD rfl).trans
                      ((suffix_of_hexFour? hfour).trans (List.suffix_append [c, 'u'] _)))
              · split at h
                · simp at h
                · obtain ⟨found, hfound, heq⟩ := map_map_eq_ok_some h
                  obtain ⟨-, rfl⟩ := Prod.mk.inj heq
                  exact (ih hfound).trans (List.suffix_append [c, _] _)
            · split at h
              · simp at h
              · obtain ⟨found, hfound, heq⟩ := map_map_eq_ok_some h
                obtain ⟨-, rfl⟩ := Prod.mk.inj heq
                exact (ih hfound).trans (List.suffix_cons c cs)

theorem suffix_of_string [Platform] {s : String} (h : string cs = .ok (s, rest)) : rest <:+ cs := by
  rw [string] at h
  obtain ⟨found, hbody, h⟩ := bind_eq_ok_iff.1 h
  split at h
  · simp at h
  · obtain ⟨-, rfl⟩ := Prod.mk.inj (Except.ok.inj h)
    exact suffix_of_stringBody hbody

theorem suffix_of_separator {close : Char} {more : Bool} (h : separator close cs = .ok (more, rest)) :
    rest <:+ cs := by
  rw [separator] at h
  split at h
  · next left hleft =>
      obtain ⟨-, rfl⟩ := Prod.mk.inj (Except.ok.inj h)
      have hcomma : ',' :: left <:+ cs := hleft ▸ skipSpace_suffix cs
      exact (skipSpace_suffix left).trans ((List.suffix_cons _ _).trans hcomma)
  · next c left _ hleft =>
      split at h
      · obtain ⟨-, rfl⟩ := Prod.mk.inj (Except.ok.inj h)
        exact (List.suffix_cons _ _).trans (hleft ▸ skipSpace_suffix cs)
      · simp at h
  · simp at h

theorem suffix_of_memberName [Platform] {name : String} (h : memberName cs = .ok (name, rest)) :
    rest <:+ cs := by
  rw [memberName.eq_def] at h
  split at h
  · next cs =>
      obtain ⟨⟨s, behind⟩, hstring, h⟩ := bind_eq_ok_iff.1 h
      dsimp only at h
      split at h
      · next left hleft =>
          obtain ⟨-, rfl⟩ := Prod.mk.inj (Except.ok.inj h)
          have hcolon : ':' :: left <:+ behind := hleft ▸ skipSpace_suffix behind
          exact (skipSpace_suffix left).trans ((List.suffix_cons _ _).trans
            (hcolon.trans ((suffix_of_string hstring).trans (List.suffix_cons _ _))))
      · simp at h
  · simp at h

theorem suffix_of_bracketed {c d : Char} {behind : List Char} (h : skipSpace cs = d :: behind) :
    behind <:+ c :: cs :=
  (List.suffix_cons d behind).trans ((h ▸ skipSpace_suffix cs).trans (List.suffix_cons c cs))

end

structure LeavesSuffix [Platform] (fuel : Nat) : Prop where
  value : ∀ {depth cs v rest}, value fuel depth cs = .ok (v, rest) → rest <:+ cs
  elements : ∀ {depth cs items rest}, elements fuel depth cs = .ok (items, rest) → rest <:+ cs
  members : ∀ {depth table cs found rest},
    members fuel depth table cs = .ok (found, rest) → rest <:+ cs

section

variable [Platform] {fuel depth : Nat} {cs rest : List Char}

theorem suffix_value_succ (ih : LeavesSuffix fuel) {v : Json}
    (h : value (fuel + 1) depth cs = .ok (v, rest)) : rest <:+ cs := by
  rw [value.eq_def] at h
  dsimp only at h
  split at h
  · obtain ⟨⟨s, left⟩, hstring, heq⟩ := map_eq_ok_iff.1 h
    obtain ⟨-, rfl⟩ := Prod.mk.inj heq
    exact (suffix_of_string hstring).trans (List.suffix_cons _ _)
  · simp at h
  · simp at h
  · split at h
    · next hclose =>
        obtain ⟨-, rfl⟩ := Prod.mk.inj (Except.ok.inj h)
        exact suffix_of_bracketed hclose
    · obtain ⟨⟨items, left⟩, hitems, heq⟩ := map_eq_ok_iff.1 h
      obtain ⟨-, rfl⟩ := Prod.mk.inj heq
      exact (ih.elements hitems).trans ((skipSpace_suffix _).trans (List.suffix_cons _ _))
  · split at h
    · next hclose =>
        obtain ⟨-, rfl⟩ := Prod.mk.inj (Except.ok.inj h)
        exact suffix_of_bracketed hclose
    · obtain ⟨⟨table, left⟩, htable, heq⟩ := map_eq_ok_iff.1 h
      obtain ⟨-, rfl⟩ := Prod.mk.inj heq
      exact (ih.members htable).trans ((skipSpace_suffix _).trans (List.suffix_cons _ _))
  · exact suffix_of_scalar h

theorem suffix_elements_succ (ih : LeavesSuffix fuel) {items : List Json}
    (h : elements (fuel + 1) depth cs = .ok (items, rest)) : rest <:+ cs := by
  rw [elements] at h
  obtain ⟨⟨v, behind⟩, hvalue, h⟩ := bind_eq_ok_iff.1 h
  obtain ⟨⟨more, next⟩, hseparator, h⟩ := bind_eq_ok_iff.1 h
  have hnext : next <:+ cs := (suffix_of_separator hseparator).trans (ih.value hvalue)
  dsimp only at h
  split at h
  · obtain ⟨⟨vs, left⟩, helements, h⟩ := bind_eq_ok_iff.1 h
    obtain ⟨-, rfl⟩ := Prod.mk.inj (Except.ok.inj h)
    exact (ih.elements helements).trans hnext
  · obtain ⟨-, rfl⟩ := Prod.mk.inj (Except.ok.inj h)
    exact hnext

theorem suffix_members_succ (ih : LeavesSuffix fuel) {table found : List (String × Json)}
    (h : members (fuel + 1) depth table cs = .ok (found, rest)) : rest <:+ cs := by
  rw [members] at h
  obtain ⟨⟨name, behind⟩, hname, h⟩ := bind_eq_ok_iff.1 h
  obtain ⟨⟨v, next⟩, hvalue, h⟩ := bind_eq_ok_iff.1 h
  obtain ⟨⟨more, left⟩, hseparator, h⟩ := bind_eq_ok_iff.1 h
  have hleft : left <:+ cs :=
    (suffix_of_separator hseparator).trans ((ih.value hvalue).trans (suffix_of_memberName hname))
  dsimp only at h
  split at h
  · exact (ih.members h).trans hleft
  · obtain ⟨-, rfl⟩ := Prod.mk.inj (Except.ok.inj h)
    exact hleft

theorem leavesSuffix (fuel : Nat) : LeavesSuffix fuel := by
  -- Values, elements and members read each other with one less, so all three go together.
  induction fuel with
  | zero =>
      refine ⟨fun h => ?_, fun h => ?_, fun h => ?_⟩
      · simp [value] at h
      · simp [elements] at h
      · simp [members] at h
  | succ fuel ih =>
      exact ⟨suffix_value_succ ih, suffix_elements_succ ih, suffix_members_succ ih⟩

end

section

variable {fuel depth : Nat} {cs rest : List Char} {f : Fault}

def openers (cs : List Char) : Nat :=
  cs.countP fun c => c = '[' || c = '{'

def HasLongRun (cs : List Char) : Prop :=
  ∃ run, run <:+: cs ∧ (∀ c ∈ run, c.isDigit = true) ∧ Numeral.digitLimit < run.length

/-- What a fault that is none of syntax says of the text, where so many containers may yet open. -/
structure Accounts (depth : Nat) (cs : List Char) (f : Fault) : Prop where
  digits : ∀ count, f.problem = .tooManyDigits count → HasLongRun cs
  depth : ∀ container, f.problem = .tooDeep container → depth < openers cs

theorem openers_le (h : rest <:+ cs) : openers rest ≤ openers cs :=
  h.sublist.countP_le

theorem accounts_of_isSyntax (h : f.isSyntax = true) : Accounts depth cs f := by
  refine ⟨fun count hf => ?_, fun container hf => ?_⟩ <;> simp [Fault.isSyntax, hf] at h

theorem Accounts.of_suffix (h : Accounts depth rest f) (hsuffix : rest <:+ cs) :
    Accounts depth cs f where
  digits count hf := by
    obtain ⟨run, hrun, hdigits⟩ := h.digits count hf
    exact ⟨run, hrun.trans hsuffix.isInfix, hdigits⟩
  depth container hf := Nat.lt_of_lt_of_le (h.depth container hf) (openers_le hsuffix)

theorem Accounts.bracketed {c : Char} (h : Accounts depth rest f) (hc : c = '[' ∨ c = '{')
    (hsuffix : rest <:+ cs) : Accounts (depth + 1) (c :: cs) f where
  digits := (h.of_suffix (hsuffix.trans (List.suffix_cons c cs))).digits
  depth container hf := by
    have hinside := (h.of_suffix hsuffix).depth container hf
    have hopener : openers (c :: cs) = openers cs + 1 := by
      rcases hc with rfl | rfl <;> simp [openers]
    omega

theorem isSyntax_of_stringBody [Platform] (h : stringBody fuel cs = .error f) : f.isSyntax = true := by
  induction fuel generalizing cs with
  | zero => simp [stringBody] at h
  | succ fuel ih =>
      cases cs with
      | nil => simp [stringBody] at h
      | cons c cs =>
          rw [stringBody.eq_def] at h
          dsimp only at h
          split at h
          · simp at h
          · split at h
            · split at h
              · simp at h
              · split at h
                · exact Except.error.inj h ▸ rfl
                · exact ih (map_eq_error_iff.1 h)
              · split at h
                · exact Except.error.inj h ▸ rfl
                · exact ih (map_eq_error_iff.1 h)
            · split at h
              · exact Except.error.inj h ▸ rfl
              · exact ih (map_eq_error_iff.1 h)

theorem isSyntax_of_string [Platform] (h : string cs = .error f) : f.isSyntax = true := by
  rw [string] at h
  rcases bind_eq_error_iff.1 h with hbody | ⟨found, -, h⟩
  · exact isSyntax_of_stringBody hbody
  · split at h
    · exact Except.error.inj h ▸ rfl
    · simp [pure, Except.pure] at h

theorem isSyntax_of_separator {close : Char} (h : separator close cs = .error f) :
    f.isSyntax = true := by
  rw [separator] at h
  split at h
  · simp at h
  · split at h
    · simp at h
    · exact Except.error.inj h ▸ rfl
  · exact Except.error.inj h ▸ rfl

theorem isSyntax_of_memberName [Platform] (h : memberName cs = .error f) : f.isSyntax = true := by
  rw [memberName.eq_def] at h
  split at h
  · rcases bind_eq_error_iff.1 h with hstring | ⟨found, -, h⟩
    · exact isSyntax_of_string hstring
    · dsimp only at h
      split at h
      · simp [pure, Except.pure] at h
      · exact Except.error.inj h ▸ rfl
  · exact Except.error.inj h ▸ rfl

theorem wholeDigits_append_rest (cs : List Char) :
    (wholeDigits cs).1 ++ (wholeDigits cs).2 = cs := by
  rw [wholeDigits.eq_def]
  split
  · rfl
  · exact List.takeWhile_append_dropWhile

theorem isDigit_of_mem_wholeDigits {c : Char} (h : c ∈ (wholeDigits cs).1) : c.isDigit = true := by
  rw [wholeDigits.eq_def] at h
  split at h
  · obtain rfl := List.mem_singleton.1 h
    rfl
  · exact List.all_eq_true.1 List.all_takeWhile c h

theorem hasLongRun_of_number? {p : Problem} (h : number? cs = some (.error p, rest)) :
    HasLongRun cs ∧ ∃ count, p = .tooManyDigits count := by
  simp only [number?] at h
  split at h
  · simp at h
  · split at h
    · split at h
      · next hlong =>
          have hprefix : (wholeDigits (unsigned cs).2).1 <+: (unsigned cs).2 :=
            ⟨_, wholeDigits_append_rest _⟩
          obtain ⟨hp, -⟩ := Prod.mk.inj (Option.some.inj h)
          exact ⟨⟨_, hprefix.isInfix.trans (suffix_unsigned cs).isInfix,
            fun c => isDigit_of_mem_wholeDigits, hlong⟩, _, (Except.error.inj hp).symm⟩
      · simp at h
    · simp at h

theorem accounts_of_scalar (h : scalar cs = .error f) : Accounts depth cs f := by
  rw [scalar] at h
  split at h
  · simp at h
  · split at h
    · simp at h
    · next hnumber =>
        obtain rfl := Except.error.inj h
        obtain ⟨hlong, count, rfl⟩ := hasLongRun_of_number? hnumber
        exact ⟨fun _ _ => hlong, fun container hf => absurd hf (by simp)⟩
    · exact accounts_of_isSyntax (Except.error.inj h ▸ rfl)

end

structure FaultsAccount [Platform] (fuel : Nat) : Prop where
  value : ∀ {depth cs f}, value fuel depth cs = .error f → Accounts depth cs f
  elements : ∀ {depth cs f}, elements fuel depth cs = .error f → Accounts depth cs f
  members : ∀ {depth table cs f}, members fuel depth table cs = .error f → Accounts depth cs f

section

variable [Platform] {fuel depth : Nat} {cs : List Char} {f : Fault}

theorem accounts_value_succ (ih : FaultsAccount fuel)
    (h : value (fuel + 1) depth cs = .error f) : Accounts depth cs f := by
  rw [value.eq_def] at h
  dsimp only at h
  split at h
  · exact accounts_of_isSyntax (isSyntax_of_string (map_eq_error_iff.1 h))
  · obtain rfl := Except.error.inj h
    exact ⟨fun count hf => absurd hf (by simp), fun container _ => by simp [openers]⟩
  · obtain rfl := Except.error.inj h
    exact ⟨fun count hf => absurd hf (by simp), fun container _ => by simp [openers]⟩
  -- Inside of a bracket one container less may open, and the bracket itself makes up for it.
  · split at h
    · simp at h
    · exact (ih.elements (map_eq_error_iff.1 h)).bracketed (.inl rfl) (skipSpace_suffix _)
  · split at h
    · simp at h
    · exact (ih.members (map_eq_error_iff.1 h)).bracketed (.inr rfl) (skipSpace_suffix _)
  · exact accounts_of_scalar h

theorem accounts_elements_succ (ih : FaultsAccount fuel)
    (h : elements (fuel + 1) depth cs = .error f) : Accounts depth cs f := by
  rw [elements] at h
  rcases bind_eq_error_iff.1 h with hvalue | ⟨⟨v, behind⟩, hvalue, h⟩
  · exact ih.value hvalue
  have hbehind : behind <:+ cs := (leavesSuffix fuel).value hvalue
  rcases bind_eq_error_iff.1 h with hseparator | ⟨⟨more, next⟩, hseparator, h⟩
  · exact accounts_of_isSyntax (isSyntax_of_separator hseparator)
  have hnext : next <:+ cs := (suffix_of_separator hseparator).trans hbehind
  dsimp only at h
  split at h
  · rcases bind_eq_error_iff.1 h with helements | ⟨found, -, h⟩
    · exact (ih.elements helements).of_suffix hnext
    · simp [pure, Except.pure] at h
  · simp [pure, Except.pure] at h

theorem accounts_members_succ (ih : FaultsAccount fuel) {table : List (String × Json)}
    (h : members (fuel + 1) depth table cs = .error f) : Accounts depth cs f := by
  rw [members] at h
  rcases bind_eq_error_iff.1 h with hname | ⟨⟨name, behind⟩, hname, h⟩
  · exact accounts_of_isSyntax (isSyntax_of_memberName hname)
  have hbehind : behind <:+ cs := suffix_of_memberName hname
  rcases bind_eq_error_iff.1 h with hvalue | ⟨⟨v, next⟩, hvalue, h⟩
  · exact (ih.value hvalue).of_suffix hbehind
  have hnext : next <:+ cs := ((leavesSuffix fuel).value hvalue).trans hbehind
  rcases bind_eq_error_iff.1 h with hseparator | ⟨⟨more, left⟩, hseparator, h⟩
  · exact accounts_of_isSyntax (isSyntax_of_separator hseparator)
  have hleft : left <:+ cs := (suffix_of_separator hseparator).trans hnext
  dsimp only at h
  split at h
  · exact (ih.members h).of_suffix hleft
  · simp [pure, Except.pure] at h

theorem faultsAccount (fuel : Nat) : FaultsAccount fuel := by
  induction fuel with
  | zero =>
      refine ⟨fun h => ?_, fun h => ?_, fun h => ?_⟩
      · exact accounts_of_isSyntax (Except.error.inj h ▸ rfl)
      · exact accounts_of_isSyntax (Except.error.inj h ▸ rfl)
      · exact accounts_of_isSyntax (Except.error.inj h ▸ rfl)
  | succ fuel ih =>
      exact ⟨accounts_value_succ ih, accounts_elements_succ ih, accounts_members_succ ih⟩

theorem accounts_of_parse (h : parse cs = .error f) : Accounts Platform.jsonDepth cs f := by
  rw [parse, parseWithin.eq_def] at h
  split at h
  · exact accounts_of_isSyntax (Except.error.inj h ▸ rfl)
  · rcases bind_eq_error_iff.1 h with hvalue | ⟨⟨v, rest⟩, -, h⟩
    · exact ((faultsAccount _).value hvalue).of_suffix (skipSpace_suffix _)
    · dsimp only at h
      split at h
      · simp [pure, Except.pure] at h
      · exact accounts_of_isSyntax (Except.error.inj h ▸ rfl)

def PastLimit (cs : List Char) : Prop :=
  ∃ f, parse cs = .error f ∧ f.isSyntax = false

def NestedTooDeep (cs : List Char) : Prop :=
  ∃ f, parse cs = .error f ∧ f.isTooDeep = true

theorem NestedTooDeep.openers (h : NestedTooDeep cs) : Platform.jsonDepth < openers cs := by
  obtain ⟨⟨problem, left⟩, hparse, hdeep⟩ := h
  cases problem with
  | tooDeep container => exact (accounts_of_parse hparse).depth container rfl
  | _ => simp [Fault.isTooDeep] at hdeep

theorem PastLimit.cases (h : PastLimit cs) : HasLongRun cs ∨ Platform.jsonDepth < openers cs := by
  obtain ⟨⟨problem, left⟩, hparse, hlimit⟩ := h
  cases problem with
  | tooManyDigits count => exact .inl ((accounts_of_parse hparse).digits count rfl)
  | tooDeep container => exact .inr ((accounts_of_parse hparse).depth container rfl)
  | _ => simp [Fault.isSyntax] at hlimit

end

theorem passedIn?_eq_none_iff {depth : Nat} {items : List Json} :
    passed?.passedIn? depth items = none ↔ ∀ v ∈ items, v.passed? depth = none := by
  induction items with
  | nil => simp [passed?.passedIn?]
  | cons v vs ih => rw [passed?.passedIn?, Option.or_eq_none_iff, ih, List.forall_mem_cons]

theorem passedUnder?_eq_none_iff {depth : Nat} {table : List (String × Json)} :
    passed?.passedUnder? depth table = none ↔ ∀ m ∈ table, m.2.passed? depth = none := by
  induction table with
  | nil => simp [passed?.passedUnder?]
  | cons m ms ih =>
      obtain ⟨k, v⟩ := m
      rw [passed?.passedUnder?, Option.or_eq_none_iff, ih, List.forall_mem_cons]

theorem passed?_of_number? {cs rest : List Char} {v : Json} (h : number? cs = some (.ok v, rest))
    (depth : Nat) : v.passed? depth = none := by
  simp only [number?] at h
  split at h
  · simp at h
  · next hwhole =>
      split at h
      · split at h
        · simp at h
        · next hshort =>
            simp only [Option.some.injEq, Prod.mk.injEq, Except.ok.injEq] at h
            have hlength := length_natText_le (by simpa using hwhole)
              fun c => isDigit_of_mem_wholeDigits
            rw [← h.1, passed?, if_neg]
            split <;> simp <;> omega
      · simp only [Option.some.injEq, Prod.mk.injEq, Except.ok.injEq] at h
        rw [← h.1]
        rfl

theorem passed?_of_scalar {cs rest : List Char} {v : Json} (h : scalar cs = .ok (v, rest))
    (depth : Nat) : v.passed? depth = none := by
  rcases scalar_cases h with ⟨word, hword⟩ | hnumber
  · exact forall_mem_constants (P := fun v => v.passed? depth = none) rfl (fun _ => rfl) rfl
      (fun _ => rfl) hword
  · exact passed?_of_number? hnumber depth

theorem inherited_within : Inherited fun depth v => v.passed? depth = none where
  str _ _ := rfl
  scalar depth _ _ _ h := passed?_of_scalar h depth
  arr _ := passedIn?_eq_none_iff.2
  obj _ _ h := passedUnder?_eq_none_iff.2 h.2

theorem written_of_parse [Platform] {cs : List Char} {v : Json} (h : parse cs = .ok v) :
    v.passed? Platform.jsonDepth = none ∧ v.written = .ok v.pretty := by
  have hwithin := inherited_within.of_parse h
  exact ⟨hwithin, written_eq_ok_iff.2 ⟨hwithin, rfl⟩⟩

end SchemaDiagram.Json
