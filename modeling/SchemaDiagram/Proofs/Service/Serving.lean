import Mathlib.Logic.Relation
import SchemaDiagram.Proofs.Service.Effects
import SchemaDiagram.Proofs.Store.Isolation
import SchemaDiagram.Proofs.Store.Sessions

/-!
A service on a file, from the opening of its store through requests whose changes can all be
written. Nothing is unsaved between requests, so a store that is opened on the file answers as the
service does, and models that were found are shown until their slot is changed again.
-/

namespace SchemaDiagram

namespace DiagramStore

theorem Kept.reopened [Platform] {standing : Place} {path : Path} {s : DiagramStore} {tree : FileTree}
    (h : Kept standing path s tree) (hsaved : s.unsaved = false) :
    ∃ fresh, load tree standing path = .ok fresh ∧ s.SameAnswers fresh := by
  obtain ⟨entries, hload, horder⟩ := h.saved hsaved
  refine ⟨_, hload, ?_⟩
  rcases horder with hsame | hsorted
  · exact sameAnswers_of_entries hsame
  · exact sameAnswers_inOrder h.entries hsorted

end DiagramStore

namespace Service

open DiagramStore (Kept Plain)

section

variable [Platform]

def Saves (st : State) (r : Request) : Prop :=
  ∀ op, Asks st r op → ∃ written, write st op = .ok written

/-- A request whose change is allowed and can be written, or a change around the service that does
not touch what the path leads to. -/
inductive Step (path : Path) (allowed : Operation → Prop) : State → State → Prop where
  | answered {st : State} {r : Request} :
      Saves st r → (∀ op, Asks st r op → allowed op) → Step path allowed st (handle st r).2.1
  | elsewhere {st : State} {s : Surroundings} :
      s.standing = st.surroundings.standing →
        s.tree.contentAt st.surroundings.standing path =
          st.surroundings.tree.contentAt st.surroundings.standing path →
            Step path allowed st { st with surroundings := s }

def Run (path : Path) (allowed : Operation → Prop) : State → State → Prop :=
  Relation.ReflTransGen (Step path allowed)

def Serves (path : Path) (st : State) : Prop :=
  ∃ s store, DiagramStore.load s.tree s.standing path = .ok store ∧
    Run path (fun _ => True) ⟨s, store⟩ st

def Elsewhere (p : Slot) (op : Operation) : Prop :=
  Plain op.slot ∧ op.slot ≠ p

structure Settled (path : Path) (st : State) : Prop where
  kept : Kept st.surroundings.standing path st.store st.surroundings.tree
  saved : st.store.unsaved = false

end

section

variable [Platform] {path : Path} {allowed : Operation → Prop} {st st' : State} {r : Request}

theorem Asks.lawful {op : Operation} (h : Asks st r op) : op.Lawful := by
  cases h with
  | keep _ hscanned _ =>
      exact fun m hm => (textual_of_scanned? hscanned m hm).sayable_toJson.lawful
  | delete _ _ _ => trivial

theorem Asks.textual {now : String} {p : Slot} {models : List Model}
    (h : Asks st r (.upsert now p models)) : ∀ m ∈ models, m.Textual := by
  obtain ⟨w, source, result, -, hscanned, -, hop⟩ := h.of_upsert rfl
  obtain ⟨-, -, rfl⟩ := Operation.upsert.inj hop
  exact textual_of_scanned? hscanned

theorem settled_load {s : Surroundings} {store : DiagramStore}
    (h : DiagramStore.load s.tree s.standing path = .ok store) : Settled path ⟨s, store⟩ := by
  refine ⟨DiagramStore.kept_load h, ?_⟩
  have hstore := (DiagramStore.load_eq_ok h).1
  exact congrArg DiagramStore.unsaved hstore

theorem Saves.cases (h : Saves st r) :
    (∀ op, ¬ Asks st r op) ∧ (handle st r).2.1 = st ∨ ∃ op store tree, Writes st r op store tree := by
  rcases handle_cases st r with hunasked | hwrites | ⟨op, f, tree, hretains⟩
  · exact .inl hunasked
  · exact .inr hwrites
  · obtain ⟨written, hwritten⟩ := h op hretains.asked
    exact absurd (hretains.unwritten.symm.trans hwritten) (by simp)

theorem saves_of_saved (h : (handle st r).2.1.store.unsaved = false) : Saves st r := by
  intro op hasks
  rcases handle_cases st r with
    ⟨hunasked, -⟩ | ⟨op', store, tree, hwrites⟩ | ⟨op', f, tree, hretains⟩
  · exact absurd hasks (hunasked op)
  · rw [hasks.unique hwrites.asked]
    exact ⟨_, hwrites.written⟩
  · rw [hretains.state, DiagramStore.unsaved_of_persist_error hretains.unwritten] at h
    exact absurd h (by simp)

theorem Settled.write (h : Settled path st) {op : Operation} (hasks : Asks st r op)
    {store : DiagramStore} {tree : FileTree} (hwrite : write st op = .ok (store, tree)) :
    Settled path ⟨{ around st.surroundings op with tree }, store⟩ := by
  have hkept := h.kept.apply hasks.lawful
  refine ⟨?_, DiagramStore.unsaved_of_persist hkept.named hwrite⟩
  simpa using hkept.persist hwrite

theorem Settled.step (h : Settled path st) (hstep : Step path allowed st st') :
    Settled path st' := by
  cases hstep with
  | answered hsaves _ =>
      rcases hsaves.cases with ⟨-, hstate⟩ | ⟨op, store, tree, hwrites⟩
      · rwa [hstate]
      · rw [hwrites.state]
        exact h.write hwrites.asked hwrites.written
  | elsewhere hstanding hcontent =>
      refine ⟨?_, h.saved⟩
      have hkept := h.kept.elsewhere hcontent
      rwa [← hstanding] at hkept

theorem Settled.run (h : Settled path st) (hrun : Run path allowed st st') : Settled path st' := by
  induction hrun with
  | refl => exact h
  | tail _ hstep ih => exact ih.step hstep

theorem Serves.settled (h : Serves path st) : Settled path st := by
  obtain ⟨s, store, hload, hrun⟩ := h
  exact (settled_load hload).run hrun

theorem Serves.answered (h : Serves path st) (hsaves : Saves st r) :
    Serves path (handle st r).2.1 := by
  obtain ⟨s, store, hload, hrun⟩ := h
  exact ⟨s, store, hload, hrun.tail (.answered hsaves fun _ _ => trivial)⟩

/-- Whether a request changes the store as it asks for, in its own slot only, and says that it did if
that can be sent. It always can for a diagram that is deleted. -/
structure Changes (st : State) (r : Request) (op : Operation) : Prop where
  asked : Asks st r op
  status : (handle st r).1.status = if (answer st r).1.isText = true then 200 else 400
  deleted : ∀ p, op = .delete p → (handle st r).1.status = 200
  entries : (handle st r).2.1.store.entries = (op.apply st.store).entries
  rest : DiagramStore.DiffersAt op.slot st.store (handle st r).2.1.store

theorem Saves.unchanged_or_changes (h : Saves st r) :
    (∀ op, ¬ Asks st r op) ∧ (handle st r).2.1 = st ∨ ∃ op, Changes st r op := by
  rcases h.cases with hunasked | ⟨op, store, tree, hwrites⟩
  · exact .inl hunasked
  · refine .inr ⟨op, hwrites.asked, hwrites.status, fun p hop => ?_, hwrites.entries,
      (DiagramStore.differsAt_apply st.store op).of_entries hwrites.entries⟩
    subst hop
    rw [hwrites.status, if_pos (isText_of_deleted hwrites.asked hwrites.written)]

theorem Asks.changes {op : Operation} (hasks : Asks st r op) (hsaves : Saves st r) :
    Changes st r op := by
  rcases hsaves.unchanged_or_changes with ⟨hunasked, -⟩ | ⟨op', hchanges⟩
  · exact absurd hasks (hunasked op)
  · rwa [hasks.unique hchanges.asked]

theorem Changes.entryOf {op : Operation} (h : Changes st r op) (p : Slot) :
    (handle st r).2.1.store.entryOf p = (op.apply st.store).entryOf p := by
  rw [DiagramStore.entryOf, DiagramStore.entryOf, DiagramStore.entryAt?, DiagramStore.entryAt?,
    h.entries]

theorem entryOf_step {p : Slot} (hp : Plain p) (hstep : Step path (Elsewhere p) st st') :
    st'.store.entryOf p = st.store.entryOf p := by
  cases hstep with
  | answered hsaves hallowed =>
      rcases hsaves.unchanged_or_changes with ⟨-, hstate⟩ | ⟨op, hchanges⟩
      · rw [hstate]
      · obtain ⟨hop, hne⟩ := hallowed op hchanges.asked
        have hkey := DiagramStore.key_ne_of_ne hop hp fun hsame => hne hsame.symm
        exact DiagramStore.entryOf_eq_of_others hchanges.rest.others hkey
  | elsewhere _ _ => rfl

theorem entryOf_run {p : Slot} (hp : Plain p) (hrun : Run path (Elsewhere p) st st') :
    st'.store.entryOf p = st.store.entryOf p := by
  induction hrun with
  | refl => rfl
  | tail _ hstep ih => exact (entryOf_step hp hstep).trans ih

structure Tells (st : State) (r : Request) (models : List Model) : Prop where
  answered : (answer st r).1.Shows models
  sent : (answer st r).1.isText = true → (handle st r).1.Shows models
  unsent : (answer st r).1.isText = false → (handle st r).1.status = 400

theorem tells_of_shows {models : List Model} (hmethod : r.method ≠ .head)
    (h : (answer st r).1.Shows models) : Tells st r models := by
  refine ⟨h, fun htext => ?_, fun htext => ?_⟩
  · rwa [handle_of_ne_head st r hmethod, Reply.sent_of_isText htext]
  · rw [handle_status, Reply.status_sent, if_neg (by simp [htext])]

structure Gets (r : Request) (p : Slot) : Prop where
  method : r.method = .get
  text : Platform.isText r.path.toList = true ∧ Platform.isText (userOf r).toList = true
  target : Target.ofRequest r.method r.path.toList = .resource (.diagram p.repository)
  user : userOf r = p.user

def isSayable (record : DiagramRecord) : Bool :=
  Reply.isTold record && Platform.isText record.toJson.finite.plain

theorem ofRecords_singleton (record : DiagramRecord) (v : Json) :
    Reply.ofRecords [record] v = if Reply.isTold record = true then .ok v else .unsaid := by
  simp [Reply.ofRecords]

theorem answer_of_entryOf {p : Slot} {record : DiagramRecord} (hgets : Gets r p)
    (hentry : st.store.entryOf p = some (.ofRecord record)) :
    (answer st r).1 = .ofRecords [record] record.toJson := by
  have hkept : st.store.entryOf p = (some record).map .ofRecord := hentry
  have hfound : st.store.find? p.repository p.user = some record :=
    DiagramStore.find?_of_entryOf hkept
  have hget : st.store.get p.repository (userOf r) = .ok record := by
    rw [hgets.user, DiagramStore.get, hfound]
  have hmethod : r.method ≠ .delete := by simp [hgets.method]
  rw [answer, hgets.target]
  simp only [if_neg hmethod, lookup, hget]

theorem shows_of_entryOf {p : Slot} {record : DiagramRecord} (hgets : Gets r p)
    (hentry : st.store.entryOf p = some (.ofRecord record))
    (hmodels : ∀ m ∈ record.models, m.Textual) (hsayable : isSayable record = true) :
    (handle st r).1.Shows record.models := by
  obtain ⟨htold, hplain⟩ := Bool.and_eq_true_iff.1 hsayable
  have hanswer : (answer st r).1 = .ok record.toJson := by
    rw [answer_of_entryOf hgets hentry, ofRecords_singleton, if_pos htold]
  have htext : (Reply.ok record.toJson).isText = true := hplain
  rw [handle_of_ne_head st r (by simp [hgets.method]), hanswer, Reply.sent_of_isText htext]
  exact shows_ok hmodels rfl

theorem status_of_not_isSayable {p : Slot} {record : DiagramRecord} (hgets : Gets r p)
    (hentry : st.store.entryOf p = some (.ofRecord record)) (hsayable : isSayable record = false) :
    (handle st r).1.status = 400 := by
  rw [handle_status, answer_of_entryOf hgets hentry, ofRecords_singleton]
  split
  · next htold =>
      have htext : (Reply.ok record.toJson).isText = false := by
        rw [isSayable, htold, Bool.true_and] at hsayable
        exact hsayable
      rw [Reply.status_sent, htext]
      rfl
  · rfl

theorem exists_gets_iff (p : Slot) : (∃ r, Gets r p) ↔ '\n' ∉ p.repository.toList ∧
    Platform.isText p.repository.toList = true ∧ Platform.isText p.user.toList = true := by
  constructor
  · rintro ⟨r, hgets⟩
    refine ⟨oneLine_of_ofRequest hgets.target, ?_, hgets.user ▸ hgets.text.2⟩
    exact Platform.isText_of_subset (subset_of_ofRequest hgets.target) hgets.text.1
  · rintro ⟨hline, hrepository, huser⟩
    have hpath : Platform.isText ("/diagrams/" ++ p.repository).toList = true := by
      rw [String.toList_append, Platform.isText_append, Platform.isText_of_ascii (by decide),
        hrepository, Bool.and_self]
    exact ⟨{ method := .get, path := "/diagrams/" ++ p.repository, query := [("user", p.user)] },
      rfl, ⟨hpath, huser⟩, ofRequest_path (.inl rfl) hline, rfl⟩

/-- Whether a service keeps models as the diagram of a slot, shows them to all who ask for it if that
can be said, and has them in its file. -/
structure Holds (path : Path) (st : State) (p : Slot) (models : List Model) : Prop where
  kept : ∃ record : DiagramRecord, record.models = models ∧
    st.store.entryOf p = some (.ofRecord record) ∧
    ∀ r, Gets r p → (isSayable record = true → (handle st r).1.Shows models) ∧
      (isSayable record = false → (handle st r).1.status = 400)
  reopened : ∃ fresh,
    DiagramStore.load st.surroundings.tree st.surroundings.standing path = .ok fresh ∧
      (fresh.find? p.repository p.user).map DiagramRecord.sorted =
        (st.store.find? p.repository p.user).map DiagramRecord.sorted

theorem Settled.holds (h : Settled path st) {p : Slot} {record : DiagramRecord}
    (hentry : st.store.entryOf p = some (.ofRecord record))
    (hmodels : ∀ m ∈ record.models, m.Textual) : Holds path st p record.models := by
  refine ⟨⟨record, rfl, hentry, fun get hgets =>
    ⟨shows_of_entryOf hgets hentry hmodels, status_of_not_isSayable hgets hentry⟩⟩, ?_⟩
  obtain ⟨fresh, hload, hanswers⟩ := h.kept.reopened h.saved
  refine ⟨fresh, hload, hanswers.found p.repository p.user fun e he => ?_⟩
  obtain rfl := Option.some.inj (hentry.symm.trans he)
  exact DiagramEntry.legible_ofRecord record

theorem holds_of_keep {now : String} {p : Slot} {models : List Model} (h : Settled path st)
    (hsaves : Saves st r) (hasks : Asks st r (.upsert now p models)) (hp : Plain p)
    (hrun : Run path (Elsewhere p) (handle st r).2.1 st') : Holds path st' p models := by
  have hstep : Step path (fun _ => True) st (handle st r).2.1 :=
    .answered hsaves fun _ _ => trivial
  have hentry : st'.store.entryOf p =
      some (.ofRecord (st.store.recordAt now p.repository p.user models)) := by
    rw [entryOf_run hp hrun, (hasks.changes hsaves).entryOf p]
    exact DiagramStore.entryAt?_upsert_self st.store now p.repository p.user models
  exact ((h.step hstep).run hrun).holds hentry hasks.textual

theorem written_through (h : Serves path st) :
    (∃ fresh, DiagramStore.load st.surroundings.tree st.surroundings.standing path = .ok fresh ∧
      st.store.SameAnswers fresh) ∧
    ∀ r, Saves st r →
      Serves path (handle st r).2.1 ∧
      ((∀ op, ¬ Asks st r op) ∧ (handle st r).2.1 = st ∨ ∃ op, Changes st r op) ∧
      ∀ now p models, Asks st r (.upsert now p models) → Plain p →
        Tells st r models ∧
        ((∃ get, Gets get p) ↔ '\n' ∉ p.repository.toList ∧
          Platform.isText p.repository.toList = true ∧ Platform.isText p.user.toList = true) ∧
        ∀ later, Run path (Elsewhere p) (handle st r).2.1 later → Holds path later p models := by
  refine ⟨h.settled.kept.reopened h.settled.saved, fun r hsaves =>
    ⟨h.answered hsaves, hsaves.unchanged_or_changes, fun now p models hasks hp =>
      ⟨?_, exists_gets_iff p, fun later hrun =>
      holds_of_keep h.settled hsaves hasks hp hrun⟩⟩⟩
  obtain ⟨written, hwrite⟩ := hsaves _ hasks
  exact tells_of_shows hasks.ne_head (shows_of_written hasks hwrite)

end

open DiagramStore (shelf)

theorem serves_load [Platform] {tree : FileTree} {store : DiagramStore} {path : Path}
    (h : DiagramStore.load tree [] path = .ok store) : Serves path (opened tree store) :=
  ⟨(opened tree store).surroundings, store, h, .refl⟩

def shop : State :=
  opened (shopTree "shop" "user.js") { path := some shelf }

theorem asks_of_scanned? [Platform] (st : State) (path : String) {repository user : String}
    {names : List String} (hne : names ≠ [])
    (h : ((scanned? st (wishFor path).body).map fun (w, source, result) =>
      (w.user, source.identity, result.models.map Model.name)) = some (user, repository, names)) :
    ∃ now models, models.map Model.name = names ∧
      Asks st (wishFor path) (.upsert now ⟨repository, user⟩ models) := by
  obtain ⟨⟨w, source, result⟩, hscanned, heq⟩ := Option.map_eq_some_iff.1 h
  obtain ⟨rfl, rfl, rfl⟩ := by simpa using heq
  have hfound : result.found = true := ScanResult.found_iff.2 (by simpa using hne)
  have htarget : Target.ofRequest (wishFor path).method (wishFor path).path.toList =
      .resource .generation := by
    have hroute : Target.ofRequest .post "/diagrams/generate".toList = .resource .generation := by
      decide
    exact hroute
  exact ⟨st.surroundings.clock.text, result.models, rfl, .keep htarget hscanned hfound⟩

theorem shop_written_through :
    Serves shelf shop ∧ Saves shop (wishFor "/shop") ∧ Plain ⟨"/shop", "ann"⟩ ∧
    ∃ now models, models.map Model.name = ["User"] ∧
      Asks shop (wishFor "/shop") (.upsert now ⟨"/shop", "ann"⟩ models) ∧
      Holds shelf (handle shop (wishFor "/shop")).2.1 ⟨"/shop", "ann"⟩ models := by
  have hserves : Serves shelf shop := serves_load rfl
  have hsaves : Saves shop (wishFor "/shop") := saves_of_saved (by decide +kernel)
  have hplain : Plain ⟨"/shop", "ann"⟩ := by decide
  have hscanned : (scanned? shop (wishFor "/shop").body).map (fun (w, source, result) =>
      (w.user, source.identity, result.models.map Model.name)) =
        some ("ann", "/shop", ["User"]) := by
    decide +kernel
  obtain ⟨now, models, hnames, hasks⟩ := asks_of_scanned? shop "/shop" (by simp) hscanned
  obtain ⟨-, -, hkeeps⟩ := (written_through hserves).2 _ hsaves
  obtain ⟨-, -, hholds⟩ := hkeeps now _ models hasks hplain
  exact ⟨hserves, hsaves, hplain, now, models, hnames, hasks, hholds _ .refl⟩

def unnamedShelf : FileTree :=
  let unnamed : Json := .obj [("models", .arr []), ("user", .str "u"),
    ("repository", .obj [("b", .int 1), ("a", .int 2)])]
  let content : Json := .obj [("version", .int 1),
    ("entries", .obj [("u::r", unnamed), ("y::x", .obj [("models", .arr [])])])]
  .directory [("kept", .directory [("diagrams.json", .file (Utf8.encode content.pretty))])]

def deleteOther : Request :=
  { method := .delete, path := "/diagrams/x", query := [("user", "y")] }

def namesAfter [Platform] (tree : FileTree) (r : Request) (p : Slot) :
    Except DiagramStore.Fault (Bool × Option String × Option String) := do
  let store ← DiagramStore.load tree [] shelf
  let after := (handle (opened tree store) r).2.1
  let fresh ← DiagramStore.load after.surroundings.tree after.surroundings.standing shelf
  return (after.store.unsaved,
    (after.store.find? p.repository p.user).map DiagramRecord.repository,
    (fresh.find? p.repository p.user).map DiagramRecord.repository)

theorem unnamed_found_in_order :
    ∃ st fresh, Serves shelf st ∧ Saves st deleteOther ∧
      DiagramStore.load (handle st deleteOther).2.1.surroundings.tree
        (handle st deleteOther).2.1.surroundings.standing shelf = .ok fresh ∧
      fresh.find? "r" "u" ≠ (handle st deleteOther).2.1.store.find? "r" "u" := by
  have hnames : (namesAfter unnamedShelf deleteOther ⟨"r", "u"⟩).toOption =
      some (false, some "\x7b'b': 1, 'a': 2\x7d", some "\x7b'a': 2, 'b': 1\x7d") := by
    decide +kernel
  obtain ⟨store, hload, hnames⟩ := bind_eq_ok_iff.1 (toOption_eq_some_iff.1 hnames)
  obtain ⟨fresh, hfresh, hnames⟩ := bind_eq_ok_iff.1 hnames
  obtain ⟨hsaved, hrest⟩ := Prod.mk.inj (Except.ok.inj hnames)
  obtain ⟨hold, hnew⟩ := Prod.mk.inj hrest
  refine ⟨opened unnamedShelf store, fresh, serves_load hload, saves_of_saved hsaved, hfresh,
    fun hsame => ?_⟩
  have hrepository := congrArg (Option.map DiagramRecord.repository) hsame
  rw [hold, hnew] at hrepository
  exact absurd hrepository (by decide)

def twoLines : State :=
  opened (shopTree "sh\nop" "user.js") { path := some shelf }

theorem twoLines_unread :
    Serves shelf twoLines ∧ Saves twoLines (wishFor "/sh\\nop") ∧
    (∃ now models, models.map Model.name = ["User"] ∧
      Asks twoLines (wishFor "/sh\\nop") (.upsert now ⟨"/sh\nop", "ann"⟩ models)) ∧
    ∀ (st : State) (get : Request), get.method = .get → get.path = "/diagrams//sh\nop" →
      (handle st get).1.status = 404 := by
  refine ⟨serves_load rfl, saves_of_saved (by decide +kernel), ?_, fun st get hmethod hpath => ?_⟩
  · exact asks_of_scanned? twoLines _ (by simp) (by decide +kernel)
  · have htarget : Target.ofRequest get.method get.path.toList = .notFound := by
      rw [hmethod, hpath]
      decide
    rw [handle_status, answer, htarget]
    rfl

def stray : State :=
  opened strayTree { path := some shelf }

def getShop : Request :=
  { method := .get, path := "/diagrams//shop", query := [("user", "ann")] }

theorem stray_unread :
    Serves shelf stray ∧ Saves stray (wishFor "/shop") ∧
    (∃ now models, models.map Model.name = ["User"] ∧
      Asks stray (wishFor "/shop") (.upsert now ⟨"/shop", "ann"⟩ models)) ∧
    Gets getShop ⟨"/shop", "ann"⟩ ∧
    (handle (handle stray (wishFor "/shop")).2.1 getShop).1.status = 400 := by
  refine ⟨serves_load rfl, saves_of_saved (by decide +kernel), ?_, ?_, by decide +kernel⟩
  · exact asks_of_scanned? stray _ (by simp) (by decide +kernel)
  · exact ⟨rfl, by decide +kernel, by decide, by decide⟩

theorem not_all_read_back :
    (∃ st r fresh repository user, Serves shelf st ∧ Saves st r ∧ Plain ⟨repository, user⟩ ∧
      DiagramStore.load (handle st r).2.1.surroundings.tree
        (handle st r).2.1.surroundings.standing shelf = .ok fresh ∧
      fresh.find? repository user ≠ (handle st r).2.1.store.find? repository user) ∧
    (∃ st r now p models, Serves shelf st ∧ Saves st r ∧ Asks st r (.upsert now p models) ∧
      Plain p ∧ ∀ get : Request, get.method = .get → get.path = "/diagrams/" ++ p.repository →
        (handle (handle st r).2.1 get).1.status = 404) ∧
    ∃ st r now p models get, Serves shelf st ∧ Saves st r ∧ Asks st r (.upsert now p models) ∧
      Plain p ∧ Gets get p ∧ (handle (handle st r).2.1 get).1.status = 400 := by
  refine ⟨?_, ?_, ?_⟩
  · obtain ⟨st, fresh, hserves, hsaves, hload, hne⟩ := unnamed_found_in_order
    exact ⟨st, deleteOther, fresh, "r", "u", hserves, hsaves, by decide, hload, hne⟩
  · obtain ⟨hserves, hsaves, ⟨now, models, -, hasks⟩, hunread⟩ := twoLines_unread
    exact ⟨twoLines, _, now, _, models, hserves, hsaves, hasks, by decide, fun get => hunread _ get⟩
  · obtain ⟨hserves, hsaves, ⟨now, models, -, hasks⟩, hgets, hunsaid⟩ := stray_unread
    exact ⟨stray, _, now, _, models, _, hserves, hsaves, hasks, by decide, hgets, hunsaid⟩

end Service

end SchemaDiagram
