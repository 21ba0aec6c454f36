import SchemaDiagram.Proofs.Encoding.Utf8
import SchemaDiagram.Proofs.Schema.Texts
import SchemaDiagram.Proofs.Service.Routes
import SchemaDiagram.Proofs.Store.Histories
import SchemaDiagram.Proofs.Store.Sessions
import SchemaDiagram.Service.Basic

/-!
What a request does to a service: nothing, or the one change of its diagrams that it asks for. A
change stays even if it cannot be written, or if the reply that tells of it cannot be sent.
-/

namespace SchemaDiagram

namespace Service

namespace Reply

def isText [Platform] (reply : Reply) : Bool :=
  match reply.content with
  | .json v => Platform.isText v.plain
  | _ => true

theorem sent_of_isText [Platform] {reply : Reply} (h : reply.isText = true) : reply.sent = reply := by
  obtain ⟨status, content⟩ := reply
  cases content with
  | json v =>
      have hplain : Utf8.encodingFault? v.plain = none := Utf8.encodingFault?_eq_none_iff.2 h
      simp only [sent, hplain]
  | _ => rfl

theorem sent_of_not_isText [Platform] {reply : Reply} (h : reply.isText = false) :
    ∃ reason, reply.sent = .detail 400 reason := by
  obtain ⟨status, content⟩ := reply
  cases content with
  | json v =>
      have hplain : Utf8.encodingFault? v.plain ≠ none := by
        rw [Ne, Utf8.encodingFault?_eq_none_iff]
        exact Bool.eq_false_iff.1 h
      obtain ⟨reason, hreason⟩ := Option.ne_none_iff_exists'.1 hplain
      exact ⟨reason, by simp only [sent, hreason]⟩
  | _ => exact absurd h (by simp [isText])

theorem status_sent [Platform] (reply : Reply) :
    reply.sent.status = if reply.isText = true then reply.status else 400 := by
  split
  · next htext => rw [sent_of_isText htext]
  · next hother =>
      obtain ⟨reason, hsent⟩ := sent_of_not_isText (Bool.eq_false_iff.2 hother)
      rw [hsent]
      rfl

theorem ofStoreFault_cases (f : DiagramStore.Fault) :
    ofStoreFault f = .detail 400 f.message ∨ ofStoreFault f = broken := by
  rw [ofStoreFault.eq_def]
  split
  · exact .inl rfl
  · exact .inl rfl
  · exact .inr rfl

theorem status_sent_ofStoreFault [Platform] (f : DiagramStore.Fault) :
    (ofStoreFault f).sent.status = (ofStoreFault f).status := by
  rw [status_sent]
  rcases ofStoreFault_cases f with hvalue | hbroken
  · rw [hvalue, detail, ite_self]
  · rw [hbroken]
    rfl

def Shows (models : List Model) (reply : Reply) : Prop :=
  reply.status = 200 ∧ ∃ v, reply.content = .json v ∧
    v.get? "models" = some (.arr (models.map Model.toJson))

end Reply

theorem shows_ok {models : List Model} (h : ∀ m ∈ models, m.Textual) {v : Json}
    (hv : v.get? "models" = some (.arr (models.map Model.toJson))) :
    (Reply.ok v).Shows models := by
  refine ⟨rfl, v.finite, rfl, ?_⟩
  rw [Json.get?_finite, hv, Option.map_some, (Model.sayable_arr_map_toJson h).finite_eq]

theorem resultJson_eq_ok {result : ScanResult} (h : ∀ m ∈ result.models, m.Textual) (w : Wish) :
    ∃ v, resultJson w result = .ok v ∧
      v.get? "models" = some (.arr (result.models.map Model.toJson)) := by
  rw [resultJson]
  by_cases hgraph : w.includeGraph = true
  · obtain ⟨graph, hdrawn⟩ := Diagram.toJson_eq_ok h
    rw [if_pos hgraph, hdrawn]
    exact ⟨_, rfl, rfl⟩
  · rw [if_neg hgraph]
    exact ⟨_, rfl, rfl⟩

theorem toOption_eq_some_iff {ε α : Type} {x : Except ε α} {a : α} :
    x.toOption = some a ↔ x = .ok a := by
  cases x <;> simp [Except.toOption]

def around (s : Surroundings) : Operation → Surroundings
  | .upsert _ _ _ => s.tick
  | .delete _ => s

@[simp] theorem standing_around (s : Surroundings) (op : Operation) :
    (around s op).standing = s.standing := by
  cases op <;> rfl

section

variable [Platform]

def scanned? (st : State) (body : Bytes) : Option (Wish × Source × ScanResult) := do
  let v ← (parseBody body).toOption
  let c ← (st.surroundings.readConfig (Path.ofText "")).toOption
  let w ← (Wish.ofBody v).toOption
  let source ← (sourceOf st.surroundings c w).toOption
  let result ← (st.surroundings.scan c source w.orm w.timeout).result.toOption
  return (w, source, result)

def keeping (st : State) (source : Source) (w : Wish) (result : ScanResult) : Operation :=
  .upsert st.surroundings.clock.text ⟨source.identity, w.user⟩ result.models

/-- The change that a request asks for: to keep the models that were found for it, or to delete a
diagram that is there. -/
inductive Asks (st : State) (r : Request) : Operation → Prop where
  | keep {w : Wish} {source : Source} {result : ScanResult} :
      Target.ofRequest r.method r.path.toList = .resource .generation →
        scanned? st r.body = some (w, source, result) → result.found = true →
          Asks st r (keeping st source w result)
  | delete {repository : String} :
      Target.ofRequest r.method r.path.toList = .resource (.diagram repository) →
        r.method = .delete → (st.store.entryAt? repository (userOf r)).isSome →
          Asks st r (.delete ⟨repository, userOf r⟩)

def write (st : State) (op : Operation) :
    Except (DiagramStore.Fault × FileTree) (DiagramStore × FileTree) :=
  (op.apply st.store).persist st.surroundings.tree st.surroundings.standing

inductive Effect (st : State) (r : Request) : Reply → State → Prop where
  | none {reply : Reply} : (∀ op, ¬ Asks st r op) → Effect st r reply st
  | written {op : Operation} {reply : Reply} {store : DiagramStore} {tree : FileTree} :
      Asks st r op → write st op = .ok (store, tree) → reply.status = 200 →
        Effect st r reply ⟨{ around st.surroundings op with tree }, store⟩
  | unwritten {op : Operation} {f : DiagramStore.Fault} {tree : FileTree} :
      Asks st r op → write st op = .error (f, tree) →
        Effect st r (.ofStoreFault f) ⟨{ around st.surroundings op with tree }, op.apply st.store⟩

end

section

variable [Platform] {st : State} {r : Request} {body : Bytes} {w : Wish} {source : Source}
  {result : ScanResult}

theorem scanned?_eq_some_iff :
    scanned? st body = some (w, source, result) ↔
      ∃ v c, parseBody body = .ok v ∧ st.surroundings.readConfig (Path.ofText "") = .ok c ∧
        Wish.ofBody v = .ok w ∧ sourceOf st.surroundings c w = .ok source ∧
          (st.surroundings.scan c source w.orm w.timeout).result = .ok result := by
  simp [scanned?, Option.bind_eq_some_iff, toOption_eq_some_iff]

theorem textual_of_scanned? (h : scanned? st body = some (w, source, result)) :
    ∀ m ∈ result.models, m.Textual := by
  obtain ⟨v, c, -, -, -, -, hresult⟩ := scanned?_eq_some_iff.1 h
  exact Pipeline.textual_run hresult

theorem Asks.unique {op op' : Operation} (h : Asks st r op) (h' : Asks st r op') : op = op' := by
  cases h with
  | keep htarget hscanned _ =>
      cases h' with
      | keep _ hscanned' _ =>
          cases hscanned.symm.trans hscanned'
          rfl
      | delete htarget' _ _ => simp [htarget] at htarget'
  | delete htarget _ _ =>
      cases h' with
      | keep htarget' _ _ => simp [htarget] at htarget'
      | delete htarget' _ _ =>
          rw [htarget] at htarget'
          cases htarget'
          rfl

theorem Asks.ne_head {op : Operation} (h : Asks st r op) : r.method ≠ .head := by
  intro hhead
  cases h with
  | keep htarget _ _ =>
      have hallows := (mem_named_of_ofRequest htarget).2
      simp [Resource.allows, hhead] at hallows
  | delete _ hdelete _ => simp [hhead] at hdelete

theorem keep_of_written {store : DiagramStore} {tree : FileTree} (hfound : result.found = true)
    (h : write st (keeping st source w result) = .ok (store, tree)) :
    Service.keep st source w result = (⟨{ st.surroundings.tick with tree }, store⟩, none) := by
  have hpersist : (st.store.upsert st.surroundings.clock.text source.identity w.user
      result.models).2.persist st.surroundings.tree st.surroundings.standing = .ok (store, tree) := h
  simp [Service.keep, hfound, Surroundings.keep, Surroundings.persist, Surroundings.tick, hpersist]

theorem keep_of_unwritten {f : DiagramStore.Fault} {tree : FileTree} (hfound : result.found = true)
    (h : write st (keeping st source w result) = .error (f, tree)) :
    Service.keep st source w result =
      (⟨{ st.surroundings.tick with tree }, (keeping st source w result).apply st.store⟩, some f) := by
  have hpersist : (st.store.upsert st.surroundings.clock.text source.identity w.user
      result.models).2.persist st.surroundings.tree st.surroundings.standing = .error (f, tree) := h
  simp [Service.keep, hfound, Surroundings.keep, Surroundings.persist, Surroundings.tick, hpersist,
    keeping, Operation.apply]

theorem keep_of_not_found (hfound : result.found = false) :
    Service.keep st source w result = (st, none) := by
  simp [Service.keep, hfound]

theorem scan_of_unwritten {c : Config} {f : DiagramStore.Fault} {tree : FileTree}
    (hresult : (st.surroundings.scan c source w.orm w.timeout).result = .ok result)
    (hfound : result.found = true)
    (hwrite : write st (keeping st source w result) = .error (f, tree)) :
    (scan st c source w).1 = .ofStoreFault f ∧ (scan st c source w).2.1 =
      ⟨{ st.surroundings.tick with tree }, (keeping st source w result).apply st.store⟩ := by
  simp only [scan, hresult, keep_of_unwritten hfound hwrite]
  exact ⟨trivial, trivial⟩

theorem scan_of_written {c : Config} {store : DiagramStore} {tree : FileTree}
    (hmodels : ∀ m ∈ result.models, m.Textual)
    (hresult : (st.surroundings.scan c source w.orm w.timeout).result = .ok result)
    (hfound : result.found = true)
    (hwrite : write st (keeping st source w result) = .ok (store, tree)) :
    (scan st c source w).1.Shows result.models ∧
      (scan st c source w).2.1 = ⟨{ st.surroundings.tick with tree }, store⟩ := by
  obtain ⟨v, hjson, hv⟩ := resultJson_eq_ok hmodels w
  simp only [scan, hresult, keep_of_written hfound hwrite, hjson]
  exact ⟨shows_ok hmodels hv, trivial⟩

theorem scan_of_not_found {c : Config}
    (hresult : (st.surroundings.scan c source w.orm w.timeout).result = .ok result)
    (hfound : result.found = false) : (scan st c source w).2.1 = st := by
  simp only [scan, hresult, keep_of_not_found hfound]
  split <;> rfl

theorem scan_of_error {c : Config} {f : Pipeline.Fault}
    (hresult : (st.surroundings.scan c source w.orm w.timeout).result = .error f) :
    (scan st c source w).2.1 = st := by
  simp only [scan, hresult]
  split
  · rfl
  · rfl
  · rfl
  · next hother => simp at hother

theorem generate_of_scanned? (h : scanned? st body = some (w, source, result)) :
    ∃ c, (st.surroundings.scan c source w.orm w.timeout).result = .ok result ∧
      generate st body = scan st c source w := by
  obtain ⟨v, c, hparse, hconfig, hwish, hsource, hresult⟩ := scanned?_eq_some_iff.1 h
  refine ⟨c, hresult, ?_⟩
  simp only [generate, hparse, hconfig, hwish, hsource]

theorem generate_unchanged (h : scanned? st body = none) :
    (generate st body).2.1 = st := by
  rw [generate]
  split
  · rfl
  · rfl
  · next v hparse =>
      split
      · rfl
      · next c hconfig =>
          split
          · rfl
          · next w hwish =>
              split
              · rfl
              · next source hsource =>
                  cases hresult : (st.surroundings.scan c source w.orm w.timeout).result with
                  | error f => exact scan_of_error hresult
                  | ok result =>
                      have hscanned : scanned? st body = some (w, source, result) :=
                        scanned?_eq_some_iff.2 ⟨v, c, hparse, hconfig, hwish, hsource, hresult⟩
                      exact absurd (h.symm.trans hscanned) (by simp)

theorem not_asks_of_target
    (hgeneration : Target.ofRequest r.method r.path.toList ≠ .resource .generation)
    (hdelete : ∀ repository, Target.ofRequest r.method r.path.toList =
      .resource (.diagram repository) → r.method ≠ .delete) (op : Operation) : ¬ Asks st r op := by
  intro hop
  cases hop with
  | keep htarget _ _ => exact hgeneration htarget
  | delete htarget hmethod _ => exact hdelete _ htarget hmethod

theorem not_asks_of_not_found
    (htarget : Target.ofRequest r.method r.path.toList = .resource .generation)
    (h : ∀ w source result, scanned? st r.body = some (w, source, result) → result.found = false)
    (op : Operation) : ¬ Asks st r op := by
  intro hop
  cases hop with
  | keep _ hscanned hfound => exact absurd (h _ _ _ hscanned) (by simp [hfound])
  | delete hother _ _ => simp [htarget] at hother

theorem effect_generate (htarget : Target.ofRequest r.method r.path.toList = .resource .generation) :
    Effect st r (generate st r.body).1 (generate st r.body).2.1 := by
  cases hscanned : scanned? st r.body with
  | none =>
      rw [generate_unchanged hscanned]
      exact .none (not_asks_of_not_found htarget (by simp [hscanned]))
  | some found =>
      obtain ⟨w, source, result⟩ := found
      obtain ⟨c, hresult, hgenerate⟩ := generate_of_scanned? hscanned
      rw [hgenerate]
      cases hfound : result.found with
      | false =>
          rw [scan_of_not_found hresult hfound]
          refine .none (not_asks_of_not_found htarget fun w' source' result' hscanned' => ?_)
          cases hscanned.symm.trans hscanned'
          exact hfound
      | true =>
          have hasks : Asks st r (keeping st source w result) := .keep htarget hscanned hfound
          cases hwrite : write st (keeping st source w result) with
          | error failed =>
              obtain ⟨hreply, hstate⟩ := scan_of_unwritten hresult hfound hwrite
              rw [hreply, hstate]
              exact .unwritten hasks hwrite
          | ok written =>
              have hmodels := textual_of_scanned? hscanned
              obtain ⟨hshows, hstate⟩ := scan_of_written hmodels hresult hfound hwrite
              rw [hstate]
              exact .written hasks hwrite hshows.1

theorem delete_of_absent {repository : String}
    (habsent : (st.store.entryAt? repository (userOf r)).isSome = false) :
    (Service.delete st repository r).2 = st := by
  rw [Service.delete, DiagramStore.delete_eq habsent]

theorem delete_of_written {repository : String} {store : DiagramStore} {tree : FileTree}
    (hthere : (st.store.entryAt? repository (userOf r)).isSome)
    (hwrite : write st (.delete ⟨repository, userOf r⟩) = .ok (store, tree)) :
    Service.delete st repository r =
      (.ok (.obj [("deleted", .bool true)]), ⟨{ st.surroundings with tree }, store⟩) := by
  have hpersist : (st.store.delete repository (userOf r)).2.persist st.surroundings.tree
      st.surroundings.standing = .ok (store, tree) := hwrite
  rw [Service.delete, DiagramStore.delete_eq hthere]
  simp only [Surroundings.persist, hpersist]

theorem delete_of_unwritten {repository : String} {f : DiagramStore.Fault} {tree : FileTree}
    (hthere : (st.store.entryAt? repository (userOf r)).isSome)
    (hwrite : write st (.delete ⟨repository, userOf r⟩) = .error (f, tree)) :
    Service.delete st repository r = (.ofStoreFault f, ⟨{ st.surroundings with tree },
      (Operation.delete ⟨repository, userOf r⟩).apply st.store⟩) := by
  have hpersist : (st.store.delete repository (userOf r)).2.persist st.surroundings.tree
      st.surroundings.standing = .error (f, tree) := hwrite
  rw [Service.delete, DiagramStore.delete_eq hthere]
  simp only [Surroundings.persist, hpersist, Operation.apply]

theorem effect_delete {repository : String}
    (htarget : Target.ofRequest r.method r.path.toList = .resource (.diagram repository))
    (hmethod : r.method = .delete) :
    Effect st r (Service.delete st repository r).1 (Service.delete st repository r).2 := by
  cases hthere : (st.store.entryAt? repository (userOf r)).isSome with
  | false =>
      rw [delete_of_absent hthere]
      refine .none fun op hop => ?_
      cases hop with
      | keep hother _ _ => simp [htarget] at hother
      | delete hother _ hfound =>
          rw [htarget] at hother
          cases hother
          simp [hthere] at hfound
  | true =>
      have hasks : Asks st r (.delete ⟨repository, userOf r⟩) := .delete htarget hmethod hthere
      cases hwrite : write st (.delete ⟨repository, userOf r⟩) with
      | error failed =>
          rw [delete_of_unwritten hthere hwrite]
          exact .unwritten hasks hwrite
      | ok written =>
          rw [delete_of_written hthere hwrite]
          exact .written hasks hwrite rfl

theorem effect_answer (st : State) (r : Request) :
    Effect st r (answer st r).1 (answer st r).2.1 := by
  rw [answer]
  cases htarget : Target.ofRequest r.method r.path.toList with
  | notFound => exact .none (not_asks_of_target (by simp [htarget]) (by simp [htarget]))
  | notAllowed => exact .none (not_asks_of_target (by simp [htarget]) (by simp [htarget]))
  | moved => exact .none (not_asks_of_target (by simp [htarget]) (by simp [htarget]))
  | resource resource =>
      cases resource with
      | health => exact .none (not_asks_of_target (by simp [htarget]) (by simp [htarget]))
      | diagrams => exact .none (not_asks_of_target (by simp [htarget]) (by simp [htarget]))
      | generation => exact effect_generate htarget
      | diagram repository =>
          by_cases hmethod : r.method = .delete
          · simp only [if_pos hmethod]
            exact effect_delete htarget hmethod
          · simp only [if_neg hmethod]
            exact .none (not_asks_of_target (by simp [htarget]) fun _ _ => hmethod)

theorem handle_state (st : State) (r : Request) : (handle st r).2.1 = (answer st r).2.1 := by
  rw [handle]

theorem handle_status (st : State) (r : Request) :
    (handle st r).1.status = (answer st r).1.sent.status := by
  rw [handle]
  generalize answer st r = answered
  dsimp only
  split <;> rfl

structure Writes (st : State) (r : Request) (op : Operation) (store : DiagramStore)
    (tree : FileTree) : Prop where
  asked : Asks st r op
  written : write st op = .ok (store, tree)
  status : (handle st r).1.status = if (answer st r).1.isText = true then 200 else 400
  state : (handle st r).2.1 = ⟨{ around st.surroundings op with tree }, store⟩

theorem Writes.entries {op : Operation} {store : DiagramStore} {tree : FileTree}
    (h : Writes st r op store tree) :
    (handle st r).2.1.store.entries = (op.apply st.store).entries := by
  rw [h.state]
  exact DiagramStore.entries_of_persist h.written

/-- Whether the change that a request asks for was made, but not written. -/
structure Retains (st : State) (r : Request) (op : Operation) (f : DiagramStore.Fault)
    (tree : FileTree) : Prop where
  asked : Asks st r op
  unwritten : write st op = .error (f, tree)
  status : (handle st r).1.status = (Reply.ofStoreFault f).status
  state : (handle st r).2.1 = ⟨{ around st.surroundings op with tree }, op.apply st.store⟩

theorem handle_cases (st : State) (r : Request) :
    (∀ op, ¬ Asks st r op) ∧ (handle st r).2.1 = st ∨
    (∃ op store tree, Writes st r op store tree) ∨ ∃ op f tree, Retains st r op f tree := by
  have hstatus := handle_status st r
  have hstate := handle_state st r
  have heffect := effect_answer st r
  generalize hreply : (answer st r).1 = reply, hafter : (answer st r).2.1 = after at heffect
  rw [hreply] at hstatus
  rw [hafter] at hstate
  cases heffect with
  | none hunasked => exact .inl ⟨hunasked, hstate⟩
  | written hasks hwrite hok =>
      refine .inr (.inl ⟨_, _, _, hasks, hwrite, ?_, hstate⟩)
      rw [hstatus, Reply.status_sent, hok, hreply]
  | unwritten hasks hwrite =>
      refine .inr (.inr ⟨_, _, _, hasks, hwrite, ?_, hstate⟩)
      rw [hstatus, Reply.status_sent_ofStoreFault]

theorem Asks.of_upsert {op : Operation} (h : Asks st r op) {now : String} {p : Slot}
    {models : List Model} (hop : op = .upsert now p models) :
    ∃ w source result, Target.ofRequest r.method r.path.toList = .resource .generation ∧
      scanned? st r.body = some (w, source, result) ∧ result.found = true ∧
      keeping st source w result = .upsert now p models := by
  cases h with
  | @keep w source result htarget hscanned hfound =>
      exact ⟨w, source, result, htarget, hscanned, hfound, hop⟩
  | delete _ _ _ => exact nomatch hop

theorem shows_of_written {now : String} {p : Slot} {models : List Model}
    (hasks : Asks st r (.upsert now p models)) {written : DiagramStore × FileTree}
    (hwrite : write st (.upsert now p models) = .ok written) :
    (answer st r).1.Shows models := by
  obtain ⟨w, source, result, htarget, hscanned, hfound, hop⟩ := hasks.of_upsert rfl
  obtain ⟨c, hresult, hgenerate⟩ := generate_of_scanned? hscanned
  obtain ⟨-, -, hmodels⟩ := Operation.upsert.inj hop
  rw [← hop] at hwrite
  have hscan := scan_of_written (textual_of_scanned? hscanned) hresult hfound hwrite
  rw [answer, htarget]
  simp only [hgenerate]
  rw [← hmodels]
  exact hscan.1

theorem isText_of_deleted {p : Slot} (hasks : Asks st r (.delete p))
    {written : DiagramStore × FileTree} (hwrite : write st (.delete p) = .ok written) :
    (answer st r).1.isText = true := by
  cases hasks with
  | delete htarget hmethod hthere =>
      rw [answer, htarget]
      simp only [if_pos hmethod, delete_of_written hthere hwrite]
      exact Platform.isText_of_ascii (by decide)

end

def shopTree (name file : String) : FileTree :=
  let content := "const userSchema = new Schema(\x7b at: Date \x7d);\n"
  .directory
    [(name, .directory [("models", .directory [(file, .file (Utf8.encode content.toList))])])]

def strayTree [Platform] : FileTree :=
  shopTree "shop" (String.ofList ("user".toList ++ Platform.standIn 0xDCFF :: ".js".toList))

def opened (tree : FileTree) (store : DiagramStore) : State :=
  { surroundings :=
      { tree, standing := [], network := fun _ => .unreachable "", clock := ⟨0⟩ }
    store }

def wishFor (path : String) : Request :=
  { method := .post
    path := "/diagrams/generate"
    body := Utf8.encode
      ("\x7b\"path\": \"" ++ path ++ "\", \"user\": \"ann\"\x7d").toList }

end Service

end SchemaDiagram
