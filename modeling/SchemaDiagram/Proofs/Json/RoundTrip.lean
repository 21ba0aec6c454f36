import SchemaDiagram.Json.Limit
import SchemaDiagram.Proofs.Json.Lawful
import SchemaDiagram.Proofs.Json.Numbers
import SchemaDiagram.Proofs.Json.Strings

/-!
A lawful value is read back from its text, if it is within the limits.
-/

namespace SchemaDiagram.Json

theorem skipSpace_of_not_space {c : Char} (h : isSpace c = false) (cs : List Char) :
    skipSpace (c :: cs) = c :: cs := by
  simp [skipSpace, h]

theorem skipSpace_lineBreak (level : Nat) (cs : List Char) :
    skipSpace (lineBreak level ++ cs) = skipSpace cs := by
  have hall : ∀ c ∈ lineBreak level, isSpace c = true := by
    intro c hc
    rcases List.mem_cons.1 hc with rfl | hc
    · rfl
    · rw [List.eq_of_mem_replicate hc]
      rfl
  rw [skipSpace, List.dropWhile_append_of_pos hall, skipSpace]

def Opens (c : Char) : Prop :=
  isSpace c = false ∧ c ≠ ']' ∧ c ≠ '}' ∧ c ≠ '\ufeff'

instance (c : Char) : Decidable (Opens c) :=
  inferInstanceAs (Decidable (isSpace c = false ∧ c ≠ ']' ∧ c ≠ '}' ∧ c ≠ '\ufeff'))

theorem ne_of_isDigit {c d : Char} (h : c.isDigit = true) (hd : d.isDigit = false) : c ≠ d := by
  rintro rfl
  rw [h] at hd
  exact Bool.noConfusion hd

theorem opens_of_isDigit {c : Char} (h : c.isDigit = true) : Opens c := by
  refine ⟨?_, ne_of_isDigit h (by decide), ne_of_isDigit h (by decide), ne_of_isDigit h (by decide)⟩
  simp [isSpace, ne_of_isDigit h (d := ' ') (by decide), ne_of_isDigit h (d := '\t') (by decide),
    ne_of_isDigit h (d := '\n') (by decide), ne_of_isDigit h (d := '\r') (by decide)]

theorem exists_digit_of_number? {cs : List Char} (h : number? cs ≠ none) :
    ∃ (negative : Bool) (c : Char) (body : List Char),
      cs = signText negative ++ c :: body ∧ c.isDigit = true := by
  obtain ⟨negative, body, hcs, hbody⟩ : ∃ negative body,
      cs = signText negative ++ body ∧ unsigned cs = (negative, body) := by
    rw [unsigned.eq_def]
    split
    · exact ⟨true, _, rfl, rfl⟩
    · exact ⟨false, cs, rfl, rfl⟩
  have hwhole : (wholeDigits body).1 ≠ [] := by
    intro hnil
    refine h ?_
    simp [number?, hbody, hnil]
  cases body with
  | nil => exact absurd rfl hwhole
  | cons c body =>
      refine ⟨negative, c, body, hcs, ?_⟩
      by_contra hc
      rw [Bool.not_eq_true] at hc
      refine hwhole ?_
      rw [wholeDigits]
      · simp [hc]
      · intro cs heq
        rw [(List.cons.inj heq).1] at hc
        exact absurd hc (by decide)

theorem constant?_of_number {cs : List Char} (h : number? cs ≠ none) : constant? cs = none := by
  obtain ⟨negative, c, body, rfl, hc⟩ := exists_digit_of_number? h
  have hne : ∀ {d : Char}, d.isDigit = false → (d == c) = false := fun hd => by
    simpa using (ne_of_isDigit hc hd).symm
  cases negative <;>
    simp [constant?, constants, signText, List.isPrefixOf?, hne]

theorem scalar_of_number {cs rest : List Char} {v : Json} (h : number? cs = some (.ok v, rest)) :
    scalar cs = .ok (v, rest) := by
  rw [scalar, constant?_of_number (by simp [h]), h]

theorem opens_of_number {cs : List Char} (h : number? cs ≠ none) :
    ∃ c body, cs = c :: body ∧ Opens c := by
  obtain ⟨negative, c, body, rfl, hc⟩ := exists_digit_of_number? h
  cases negative with
  | true => exact ⟨'-', c :: body, rfl, by decide⟩
  | false => exact ⟨c, body, rfl, opens_of_isDigit hc⟩

theorem value_scalar [Platform] {c : Char} (hquote : c ≠ '"') (harray : c ≠ '[') (hobject : c ≠ '{')
    (fuel depth : Nat) (cs : List Char) : value (fuel + 1) depth (c :: cs) = scalar (c :: cs) := by
  rw [value.eq_def]
  dsimp only
  split
  · next heq => exact absurd (List.cons.inj heq).1 hquote
  · next heq => exact absurd (List.cons.inj heq).1 harray
  · next heq => exact absurd (List.cons.inj heq).1 hobject
  · next heq => exact absurd (List.cons.inj heq).1 harray
  · next heq => exact absurd (List.cons.inj heq).1 hobject
  · rfl

theorem value_of_number [Platform] {cs rest : List Char} {v : Json}
    (h : number? cs = some (.ok v, rest))
    (fuel depth : Nat) : value (fuel + 1) depth cs = .ok (v, rest) := by
  have hsome : number? cs ≠ none := by simp [h]
  rw [← scalar_of_number h]
  obtain ⟨negative, c, body, rfl, hc⟩ := exists_digit_of_number? hsome
  cases negative with
  | true => exact value_scalar (by decide) (by decide) (by decide) fuel depth _
  | false =>
      exact value_scalar (ne_of_isDigit hc (by decide)) (ne_of_isDigit hc (by decide))
        (ne_of_isDigit hc (by decide)) fuel depth _

theorem value_of_constant [Platform] (word : String) {v : Json} (h : (word, v) ∈ constants)
    (fuel depth : Nat) (rest : List Char) :
    value (fuel + 1) depth (word.toList ++ rest) = .ok (v, rest) := by
  simp only [constants, List.mem_cons, List.not_mem_nil, or_false, Prod.mk.injEq] at h
  rcases h with ⟨rfl, rfl⟩ | ⟨rfl, rfl⟩ | ⟨rfl, rfl⟩ | ⟨rfl, rfl⟩ | ⟨rfl, rfl⟩ | ⟨rfl, rfl⟩ <;> rfl

/-- Whether a value is read from its text, whatever level it is written at and whatever stands
behind it that does not go on a number. -/
def ReadsBack [Platform] (v : Json) : Prop :=
  ∀ ⦃fuel depth level : Nat⦄ ⦃rest : List Char⦄, v.passed? depth = none →
    (render level v).length ≤ fuel → EndsNumber rest →
    value (fuel + 1) depth (render level v ++ rest) = .ok (v, rest)

theorem readsBack_null [Platform] : ReadsBack .null := by
  intro fuel depth level rest _ _ _
  exact value_of_constant "null" (by simp [constants]) fuel depth rest

theorem readsBack_bool [Platform] (b : Bool) : ReadsBack (.bool b) := by
  intro fuel depth level rest _ _ _
  cases b with
  | true => exact value_of_constant "true" (by simp [constants]) fuel depth rest
  | false => exact value_of_constant "false" (by simp [constants]) fuel depth rest

theorem readsBack_int [Platform] (n : Int) : ReadsBack (.int n) := by
  intro fuel depth level rest hpassed _ hend
  have hlimit : (natText n.natAbs).length ≤ Numeral.digitLimit := by
    by_contra hlong
    rw [passed?, if_pos (Nat.lt_of_not_le hlong)] at hpassed
    exact absurd hpassed (by simp)
  exact value_of_number (number?_intText hend hlimit) fuel depth

theorem readsBack_float [Platform] {x : Binary64} (hx : x.Canonical) : ReadsBack (.float x) := by
  intro fuel depth level rest _ _ hend
  cases x with
  | nan => exact value_of_constant "NaN" (by simp [constants]) fuel depth rest
  | infinite negative =>
      cases negative with
      | true => exact value_of_constant "-Infinity" (by simp [constants]) fuel depth rest
      | false => exact value_of_constant "Infinity" (by simp [constants]) fuel depth rest
  | finite negative m e => exact value_of_number (number?_text negative hx hend) fuel depth

theorem stringText_append (s : String) (rest : List Char) :
    stringText s ++ rest = '"' :: (s.toList.flatMap escapeChar ++ '"' :: rest) := by
  simp [stringText]

theorem readsBack_str [Platform] (s : String) : ReadsBack (.str s) := by
  intro fuel depth level rest _ _ _
  have htext : render level (.str s) ++ rest =
      '"' :: (s.toList.flatMap escapeChar ++ '"' :: rest) := stringText_append s rest
  rw [htext, value, string_flatMap]
  rfl

theorem opens_render {v : Json} (hv : v.Lawful) (level : Nat) :
    ∃ c body, render level v = c :: body ∧ Opens c := by
  cases v with
  | null => exact ⟨'n', _, rfl, by decide⟩
  | bool b =>
      cases b with
      | true => exact ⟨'t', _, rfl, by decide⟩
      | false => exact ⟨'f', _, rfl, by decide⟩
  | int n =>
      rw [render, intText]
      split
      · exact ⟨'-', _, rfl, by decide⟩
      · cases htext : natText n.natAbs with
        | nil => exact absurd htext (natText_ne_nil _)
        | cons c body =>
            exact ⟨c, body, rfl, opens_of_isDigit (isDigit_of_mem_natText (htext ▸ List.mem_cons_self))⟩
  | float x =>
      cases x with
      | nan => exact ⟨'N', _, rfl, by decide⟩
      | infinite negative =>
          cases negative with
          | true => exact ⟨'-', _, rfl, by decide⟩
          | false => exact ⟨'I', _, rfl, by decide⟩
      | finite negative m e =>
          have hnumber : number? ((Binary64.finite negative m e).text ++ []) = _ :=
            number?_text negative hv fun c hc => absurd hc (by simp)
          rw [List.append_nil] at hnumber
          have hsome : number? (Binary64.finite negative m e).text ≠ none := by simp [hnumber]
          exact opens_of_number hsome
  | str s => exact ⟨'"', _, rfl, by decide⟩
  | arr items =>
      cases items with
      | nil => exact ⟨'[', _, rfl, by decide⟩
      | cons v vs => exact ⟨'[', _, rfl, by decide⟩
  | obj members =>
      cases members with
      | nil => exact ⟨'{', _, rfl, by decide⟩
      | cons m ms => exact ⟨'{', _, rfl, by decide⟩

theorem skipSpace_render {v : Json} (hv : v.Lawful) (level : Nat) (rest : List Char) :
    skipSpace (render level v ++ rest) = render level v ++ rest := by
  obtain ⟨c, body, htext, hopens⟩ := opens_render hv level
  rw [htext, List.cons_append]
  exact skipSpace_of_not_space hopens.1 _

theorem length_render_pos {v : Json} (hv : v.Lawful) (level : Nat) : 0 < (render level v).length := by
  obtain ⟨c, body, htext, -⟩ := opens_render hv level
  rw [htext]
  exact Nat.succ_pos _

theorem length_lineBreak (level : Nat) : 0 < (lineBreak level).length :=
  Nat.succ_pos _

theorem endsNumber_comma (rest : List Char) : EndsNumber (',' :: rest) :=
  endsNumber_cons (by decide) rest

theorem endsNumber_lineBreak (level : Nat) (rest : List Char) :
    EndsNumber (lineBreak level ++ rest) :=
  endsNumber_cons (by decide) _

theorem separator_comma (close : Char) (rest : List Char) :
    separator close (',' :: rest) = .ok (true, skipSpace rest) := by
  simp [separator, skipSpace, isSpace]

theorem separator_close (close : Char) (hspace : isSpace close = false) (hcomma : close ≠ ',')
    (level : Nat) (rest : List Char) :
    separator close (lineBreak level ++ close :: rest) = .ok (false, rest) := by
  rw [separator, skipSpace_lineBreak, skipSpace_of_not_space hspace]
  split
  · next heq => exact absurd (List.cons.inj heq).1 hcomma
  · next heq =>
      obtain ⟨rfl, rfl⟩ := List.cons.inj heq
      rw [if_pos rfl]
  · next heq => exact absurd heq (List.cons_ne_nil _ _)

def itemsText (level : Nat) : List Json → List Char
  | [] => []
  | v :: vs => render level v ++ render.renderItems level vs

theorem renderItems_cons (level : Nat) (v : Json) (vs : List Json) :
    render.renderItems level (v :: vs) = ',' :: lineBreak level ++ itemsText level (v :: vs) := by
  rw [render.renderItems, itemsText, List.append_assoc]

theorem elements_itemsText [Platform] {items : List Json} (hne : items ≠ [])
    (hitems : ∀ v ∈ items, v.Lawful ∧ ReadsBack v) {fuel depth level : Nat}
    (hpassed : passed?.passedIn? depth items = none)
    (hfuel : (itemsText level items).length < fuel) (outer : Nat) (rest : List Char) :
    elements (fuel + 1) depth (itemsText level items ++ (lineBreak outer ++ ']' :: rest)) =
      .ok (items, rest) := by
  induction items generalizing fuel with
  | nil => exact absurd rfl hne
  | cons v vs ih =>
      obtain ⟨hv, hread⟩ := hitems v (by simp)
      rw [passed?.passedIn?, Option.or_eq_none_iff] at hpassed
      obtain ⟨fuel, rfl⟩ := Nat.exists_eq_succ_of_ne_zero (Nat.ne_zero_of_lt hfuel)
      rw [itemsText, List.length_append] at hfuel
      have hfirst : (render level v).length ≤ fuel := by omega
      cases vs with
      | nil =>
          have hvalue := hread hpassed.1 hfirst (endsNumber_lineBreak outer (']' :: rest))
          have hclose := separator_close ']' (by decide) (by decide) outer rest
          rw [itemsText, render.renderItems, List.append_nil, elements, hvalue]
          simp only [bind, Except.bind, hclose]
          rfl
      | cons w vs =>
          rw [renderItems_cons, List.cons_append, List.length_cons, List.length_append] at hfuel
          -- No text of an element is empty, so the fuel lasts for the others.
          have hpos := length_render_pos hv level
          have hbreak := length_lineBreak level
          have hw := (hitems w (by simp)).1
          have hmore : (itemsText level (w :: vs)).length < fuel := by omega
          have hrest := ih (List.cons_ne_nil _ _) (fun u hu => hitems u (List.mem_cons_of_mem _ hu))
            hpassed.2 hmore
          have hvalue := hread hpassed.1 hfirst (endsNumber_comma
            (lineBreak level ++ itemsText level (w :: vs) ++ (lineBreak outer ++ ']' :: rest)))
          have hskip : skipSpace (lineBreak level ++ itemsText level (w :: vs) ++
              (lineBreak outer ++ ']' :: rest)) =
              itemsText level (w :: vs) ++ (lineBreak outer ++ ']' :: rest) := by
            rw [List.append_assoc, skipSpace_lineBreak, itemsText, List.append_assoc,
              skipSpace_render hw]
          rw [itemsText, renderItems_cons, List.append_assoc, List.cons_append, List.cons_append,
            elements, hvalue]
          simp only [bind, Except.bind, separator_comma, hskip, hrest]
          rfl

def memberText (level : Nat) (m : String × Json) : List Char :=
  stringText m.1 ++ [':', ' '] ++ render level m.2

def membersText (level : Nat) : List (String × Json) → List Char
  | [] => []
  | m :: ms => memberText level m ++ render.renderMembers level ms

theorem renderMembers_cons (level : Nat) (m : String × Json) (ms : List (String × Json)) :
    render.renderMembers level (m :: ms) =
      ',' :: lineBreak level ++ membersText level (m :: ms) := by
  obtain ⟨k, v⟩ := m
  simp [render.renderMembers, membersText, memberText]

theorem skipSpace_memberText (level : Nat) (m : String × Json) (rest : List Char) :
    skipSpace (memberText level m ++ rest) = memberText level m ++ rest := by
  rw [memberText, List.append_assoc, List.append_assoc, stringText_append]
  exact skipSpace_of_not_space (by decide) _

theorem memberName_memberText [Platform] {m : String × Json} (hm : m.2.Lawful) (level : Nat)
    (rest : List Char) :
    memberName (memberText level m ++ rest) = .ok (m.1, render level m.2 ++ rest) := by
  have hcolon : ∀ cs, skipSpace (':' :: cs) = ':' :: cs := skipSpace_of_not_space (by decide)
  have hblank : skipSpace (' ' :: (render level m.2 ++ rest)) = render level m.2 ++ rest :=
    skipSpace_render hm level rest
  rw [memberText, List.append_assoc, List.append_assoc, stringText_append, memberName]
  simp only [string_flatMap, bind, Except.bind, List.cons_append, List.nil_append, hcolon, hblank]
  rfl

theorem put_of_notMem {α : Type} {name : String} (value : α) {table : List (String × α)}
    (h : name ∉ table.map Prod.fst) : put name value table = table ++ [(name, value)] := by
  induction table with
  | nil => rfl
  | cons m ms ih =>
      obtain ⟨k, v⟩ := m
      rw [List.map_cons, List.mem_cons, not_or] at h
      rw [put, if_neg (Ne.symm h.1), ih h.2, List.cons_append]

theorem members_membersText [Platform] {ms : List (String × Json)} (hne : ms ≠ [])
    (hms : ∀ m ∈ ms, m.2.Lawful ∧ ReadsBack m.2) (table : List (String × Json))
    (hnodup : ((table ++ ms).map Prod.fst).Nodup) {fuel depth level : Nat}
    (hpassed : passed?.passedUnder? depth ms = none)
    (hfuel : (membersText level ms).length < fuel) (outer : Nat) (rest : List Char) :
    members (fuel + 1) depth table (membersText level ms ++ (lineBreak outer ++ '}' :: rest)) =
      .ok (table ++ ms, rest) := by
  -- The table holds the members in front, whose names differ from those to come.
  induction ms generalizing fuel table with
  | nil => exact absurd rfl hne
  | cons m ms ih =>
      obtain ⟨hm, hread⟩ := hms m (by simp)
      rw [passed?.passedUnder?, Option.or_eq_none_iff] at hpassed
      obtain ⟨fuel, rfl⟩ := Nat.exists_eq_succ_of_ne_zero (Nat.ne_zero_of_lt hfuel)
      rw [membersText, List.length_append] at hfuel
      have hname : m.1 ∉ table.map Prod.fst := by
        rw [List.map_append, List.map_cons] at hnodup
        exact fun hmem => (List.nodup_append.1 hnodup).2.2 _ hmem _ List.mem_cons_self rfl
      have hlength : (memberText level m).length = (stringText m.1).length + 2 +
          (render level m.2).length := by
        rw [memberText, List.length_append, List.length_append]
        rfl
      have hfirst : (render level m.2).length ≤ fuel := by omega
      cases ms with
      | nil =>
          have hvalue := hread hpassed.1 hfirst (endsNumber_lineBreak outer ('}' :: rest))
          have hclose := separator_close '}' (by decide) (by decide) outer rest
          rw [membersText, render.renderMembers, List.append_nil, members,
            memberName_memberText hm]
          simp only [bind, Except.bind, hvalue, hclose, put_of_notMem m.2 hname]
          rfl
      | cons w ms =>
          rw [renderMembers_cons, List.cons_append, List.length_cons, List.length_append] at hfuel
          have hbreak := length_lineBreak level
          have hmore : (membersText level (w :: ms)).length < fuel := by omega
          have hrest := ih (List.cons_ne_nil _ _) (fun u hu => hms u (List.mem_cons_of_mem _ hu))
            (table ++ [m]) (by simpa using hnodup) hpassed.2 hmore
          have hvalue := hread hpassed.1 hfirst (endsNumber_comma
            (lineBreak level ++ membersText level (w :: ms) ++ (lineBreak outer ++ '}' :: rest)))
          have hskip : skipSpace (lineBreak level ++ membersText level (w :: ms) ++
              (lineBreak outer ++ '}' :: rest)) =
              membersText level (w :: ms) ++ (lineBreak outer ++ '}' :: rest) := by
            rw [List.append_assoc, skipSpace_lineBreak, membersText, List.append_assoc,
              skipSpace_memberText]
          rw [membersText, renderMembers_cons, List.append_assoc, List.cons_append,
            List.cons_append, members, memberName_memberText hm]
          simp only [bind, Except.bind, hvalue, separator_comma, hskip,
            put_of_notMem m.2 hname]
          rw [if_pos trivial, hrest, List.append_assoc, List.singleton_append]

theorem value_array [Platform] {fuel depth : Nat} {cs inside : List Char}
    (hinside : skipSpace cs = inside)
    (hopen : inside.head? ≠ some ']') :
    value (fuel + 1) (depth + 1) ('[' :: cs) =
      (elements fuel depth inside).map fun (items, rest) => (.arr items, rest) := by
  subst hinside
  rw [value]
  split
  · next heq => exact absurd (by rw [heq]; rfl) hopen
  · rfl

theorem value_object [Platform] {fuel depth : Nat} {cs inside : List Char}
    (hinside : skipSpace cs = inside)
    (hopen : inside.head? ≠ some '}') :
    value (fuel + 1) (depth + 1) ('{' :: cs) =
      (members fuel depth [] inside).map fun (table, rest) => (.obj table, rest) := by
  subst hinside
  rw [value]
  split
  · next heq => exact absurd (by rw [heq]; rfl) hopen
  · rfl

theorem readsBack_arr [Platform] {items : List Json} (h : ∀ v ∈ items, v.Lawful ∧ ReadsBack v) :
    ReadsBack (.arr items) := by
  intro fuel depth level rest hpassed hfuel _
  cases depth with
  | zero => exact absurd hpassed (by simp [passed?])
  | succ depth =>
      cases items with
      | nil => rfl
      | cons v vs =>
          have hv := (h v (by simp)).1
          have hrender : render level (.arr (v :: vs)) ++ rest =
              '[' :: (lineBreak (level + 1) ++ (itemsText (level + 1) (v :: vs) ++
                (lineBreak level ++ ']' :: rest))) := by
            simp [render, itemsText]
          have hlength : (render level (.arr (v :: vs))).length =
              (itemsText (level + 1) (v :: vs)).length + (lineBreak (level + 1)).length +
                (lineBreak level).length + 2 := by
            simp only [render, itemsText, List.length_append, List.length_cons, List.length_nil]
            omega
          have hskip : skipSpace (lineBreak (level + 1) ++ (itemsText (level + 1) (v :: vs) ++
              (lineBreak level ++ ']' :: rest))) =
              itemsText (level + 1) (v :: vs) ++ (lineBreak level ++ ']' :: rest) := by
            rw [skipSpace_lineBreak, itemsText, List.append_assoc, skipSpace_render hv]
          have hopen : (itemsText (level + 1) (v :: vs) ++ (lineBreak level ++ ']' :: rest)).head? ≠
              some ']' := by
            obtain ⟨c, body, htext, hopens⟩ := opens_render hv (level + 1)
            rw [itemsText, htext]
            simpa using hopens.2.1
          obtain ⟨fuel, rfl⟩ := Nat.exists_eq_succ_of_ne_zero (show fuel ≠ 0 by omega)
          have hmore : (itemsText (level + 1) (v :: vs)).length < fuel := by omega
          have helements := elements_itemsText (List.cons_ne_nil v vs) h hpassed hmore level rest
          rw [hrender, value_array hskip hopen, helements]
          rfl

theorem readsBack_obj [Platform] {ms : List (String × Json)} (hnodup : (ms.map Prod.fst).Nodup)
    (h : ∀ m ∈ ms, m.2.Lawful ∧ ReadsBack m.2) : ReadsBack (.obj ms) := by
  intro fuel depth level rest hpassed hfuel _
  cases depth with
  | zero => exact absurd hpassed (by simp [passed?])
  | succ depth =>
      cases ms with
      | nil => rfl
      | cons m ms =>
          have hrender : render level (.obj (m :: ms)) ++ rest =
              '{' :: (lineBreak (level + 1) ++ (membersText (level + 1) (m :: ms) ++
                (lineBreak level ++ '}' :: rest))) := by
            obtain ⟨k, v⟩ := m
            simp [render, membersText, memberText]
          have hlength : (render level (.obj (m :: ms))).length =
              (membersText (level + 1) (m :: ms)).length + (lineBreak (level + 1)).length +
                (lineBreak level).length + 2 := by
            obtain ⟨k, v⟩ := m
            simp only [render, membersText, memberText, List.length_append, List.length_cons,
              List.length_nil]
            omega
          have hskip : skipSpace (lineBreak (level + 1) ++ (membersText (level + 1) (m :: ms) ++
              (lineBreak level ++ '}' :: rest))) =
              membersText (level + 1) (m :: ms) ++ (lineBreak level ++ '}' :: rest) := by
            rw [skipSpace_lineBreak, membersText, List.append_assoc, skipSpace_memberText]
          have hopen : (membersText (level + 1) (m :: ms) ++
              (lineBreak level ++ '}' :: rest)).head? ≠ some '}' := by
            rw [membersText, memberText, stringText]
            simp
          obtain ⟨fuel, rfl⟩ := Nat.exists_eq_succ_of_ne_zero (show fuel ≠ 0 by omega)
          have hmore : (membersText (level + 1) (m :: ms)).length < fuel := by omega
          have hmembers := members_membersText (List.cons_ne_nil m ms) h []
            (by simpa using hnodup) hpassed hmore level rest
          rw [hrender, value_object hskip hopen, hmembers]
          rfl

theorem readsBack [Platform] {v : Json} (hv : v.Lawful) : ReadsBack v := by
  induction v using induction_on with
  | null => exact readsBack_null
  | bool b => exact readsBack_bool b
  | int n => exact readsBack_int n
  | float x => exact readsBack_float hv
  | str s => exact readsBack_str s
  | arr items ih =>
      have hitems := lawful_arr.1 hv
      exact readsBack_arr fun v hmem => ⟨hitems v hmem, ih v hmem (hitems v hmem)⟩
  | obj members ih =>
      obtain ⟨hnodup, hmembers⟩ := lawful_obj.1 hv
      exact readsBack_obj hnodup fun m hmem => ⟨hmembers m hmem, ih m hmem (hmembers m hmem)⟩

theorem parse_written [Platform] {v : Json} (hv : v.Lawful) {cs : List Char} (h : v.written = .ok cs) :
    parse cs = .ok v := by
  obtain ⟨hpassed, rfl⟩ := written_eq_ok_iff.1 h
  obtain ⟨c, body, htext, hopens⟩ := opens_render hv 0
  have hlength : (render 0 v).length ≤ v.pretty.length := le_rfl
  have hread := readsBack hv hpassed hlength (fun c hc => absurd hc (by simp) : EndsNumber [])
  have hskip := skipSpace_render hv 0 []
  rw [List.append_nil] at hread hskip
  rw [parse, parseWithin.eq_def]
  split
  · next heq =>
      rw [pretty, htext] at heq
      exact absurd (List.cons.inj heq).1 hopens.2.2.2
  · rw [pretty] at hread ⊢
    rw [hskip, hread]
    rfl

end SchemaDiagram.Json
