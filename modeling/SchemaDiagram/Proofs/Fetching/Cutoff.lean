import Mathlib.Data.List.Infix
import SchemaDiagram.Proofs.Fetching.Pool

/-!
A pool in which slow tasks keep their workers until the wait ends. It stalls when all workers are
kept, and what was begun until then is a prefix of the tasks that only the slow ones among them
determine.
-/

namespace SchemaDiagram.Fetching

open Repository (Delivery)

section

variable {α β : Type} {slow : α → Bool} {free : Nat} {ts cut cut' : List α}

/-- Whether a list is the shortest prefix of another one with so many slow items in it, or all of
it when there are fewer. -/
structure CutsAt (slow : α → Bool) (free : Nat) (ts cut : List α) : Prop where
  isPrefix : cut <+: ts
  whole : ts.countP slow < free → cut = ts
  full : free ≤ ts.countP slow → cut.countP slow = free
  shortest : ∀ shorter, shorter <+: ts → free ≤ shorter.countP slow → cut.length ≤ shorter.length

theorem CutsAt.unique (h : CutsAt slow free ts cut) (h' : CutsAt slow free ts cut') :
    cut = cut' := by
  by_cases hfew : ts.countP slow < free
  · rw [h.whole hfew, h'.whole hfew]
  · have hmany : free ≤ ts.countP slow := not_lt.1 hfew
    have hle := h.shortest cut' h'.isPrefix (h'.full hmany).ge
    have hge := h'.shortest cut h.isPrefix (h.full hmany).ge
    exact (List.prefix_of_prefix_length_le h.isPrefix h'.isPrefix hle).eq_of_length
      (Nat.le_antisymm hle hge)

def cutAt (slow : α → Bool) : Nat → List α → List α
  | _, [] => []
  | 0, _ :: _ => []
  | free + 1, t :: ts => t :: cutAt slow (if slow t then free else free + 1) ts

theorem cutsAt_nil (slow : α → Bool) (free : Nat) : CutsAt slow free [] [] where
  isPrefix := List.prefix_refl []
  whole _ := rfl
  full h := (Nat.le_zero.1 h).symm
  shortest _ _ _ := Nat.zero_le _

theorem cutsAt_zero (slow : α → Bool) (ts : List α) : CutsAt slow 0 ts [] where
  isPrefix := List.nil_prefix
  whole h := absurd h (Nat.not_lt_zero _)
  full _ := rfl
  shortest _ _ _ := Nat.zero_le _

theorem CutsAt.cons {t : α} (h : CutsAt slow (if slow t then free else free + 1) ts cut) :
    CutsAt slow (free + 1) (t :: ts) (t :: cut) where
  isPrefix := List.cons_prefix_cons.2 ⟨rfl, h.isPrefix⟩
  whole hfew := by
    refine congrArg (t :: ·) (h.whole ?_)
    rw [List.countP_cons] at hfew
    split at hfew <;> simp_all
  full hmany := by
    have hfull := h.full
    rw [List.countP_cons] at hmany ⊢
    split at hmany <;> simp_all
  shortest shorter hbegins hcount := by
    rcases List.prefix_cons_iff.1 hbegins with rfl | ⟨rest, rfl, hrest⟩
    · simp at hcount
    · refine Nat.succ_le_succ (h.shortest rest hrest ?_)
      rw [List.countP_cons] at hcount
      split at hcount <;> simp_all

theorem cutsAt_cutAt (slow : α → Bool) (free : Nat) (ts : List α) :
    CutsAt slow free ts (cutAt slow free ts) := by
  induction ts generalizing free with
  | nil => rw [cutAt]; exact cutsAt_nil slow free
  | cons t ts ih =>
      cases free with
      | zero => exact cutsAt_zero slow (t :: ts)
      | succ free => exact (ih _).cons

theorem CutsAt.eq_cutAt (h : CutsAt slow free ts cut) : cut = cutAt slow free ts :=
  h.unique (cutsAt_cutAt slow free ts)

theorem cutAt_map (f : β → α) (free : Nat) (ts : List β) :
    cutAt slow free (ts.map f) = (cutAt (slow ∘ f) free ts).map f := by
  induction ts generalizing free with
  | nil => rfl
  | cons t ts ih =>
      cases free with
      | zero => rfl
      | succ free => simp only [List.map_cons, cutAt, ih, Function.comp_apply]

theorem cutAt_congr {slow' : α → Bool} (h : ∀ t ∈ ts, slow t = slow' t) (free : Nat) :
    cutAt slow free ts = cutAt slow' free ts := by
  induction ts generalizing free with
  | nil => rfl
  | cons t ts ih =>
      cases free with
      | zero => rfl
      | succ free =>
          rw [cutAt, cutAt, h t (by simp), ih fun u hu => h u (List.mem_cons_of_mem t hu)]

theorem takenBy_eq_cutAt (deliver : String → Delivery) (free : Nat) (paths : List String) :
    takenBy deliver free paths = cutAt (fun path => isLate (deliver path)) free paths := by
  induction paths generalizing free with
  | nil => rfl
  | cons p ps ih =>
      cases free with
      | zero => rfl
      | succ free => rw [takenBy, cutAt, ih]

theorem cutsAt_of_dropLast (hbegins : cut <+: ts) (hlast : cut.dropLast.countP slow < free)
    (hfull : cut.countP slow = free ∨ cut.countP slow ≤ free ∧ cut = ts) :
    CutsAt slow free ts cut where
  isPrefix := hbegins
  whole hfew := by
    rcases hfull with hfull | ⟨-, rfl⟩
    · have hle : cut.countP slow ≤ ts.countP slow := hbegins.sublist.countP_le
      omega
    · rfl
  full hmany := by
    rcases hfull with hfull | ⟨hle, rfl⟩
    · exact hfull
    · exact Nat.le_antisymm hle hmany
  shortest shorter hshorter hcount := by
    by_contra hlt
    have hlength : shorter.length ≤ cut.dropLast.length := by
      rw [List.length_dropLast]
      omega
    have hwithin : shorter <+: cut.dropLast := List.prefix_of_prefix_length_le hshorter
      ((List.dropLast_prefix cut).trans hbegins) hlength
    have hle : shorter.countP slow ≤ cut.dropLast.countP slow := hwithin.sublist.countP_le
    omega

end

namespace Pool

section

variable {workers : Nat} {slow : Task → Bool} {deliver : String → Delivery} {paths : List String}
  {c d : Pool} {taken : List Task} {path : String}

def HeldStep (workers : Nat) (slow : Task → Bool) (deliver : String → Delivery) (c d : Pool) :
    Prop :=
  Step workers deliver c d ∧ ∀ entry ∈ d.delivered, slow entry.1 = false

def HeldReached (workers : Nat) (slow : Task → Bool) (deliver : String → Delivery)
    (paths : List String) (c : Pool) : Prop :=
  Relation.ReflTransGen (HeldStep workers slow deliver) (start paths) c

def Stalled (workers : Nat) (slow : Task → Bool) (deliver : String → Delivery) (c : Pool) : Prop :=
  ∀ d, ¬ HeldStep workers slow deliver c d

theorem HeldReached.reached (h : HeldReached workers slow deliver paths c) :
    Reached workers deliver paths c := by
  induction h with
  | refl => exact .refl
  | tail _ hstep ih => exact ih.tail hstep.1

/-- What was taken, in order: only its last task can have kept the last free worker. -/
structure Holding (workers : Nat) (slow : Task → Bool) (paths : List String) (c : Pool)
    (taken : List Task) : Prop where
  order : taken ++ c.waiting = tasks paths
  perm : taken.Perm (c.running ++ c.delivered.map Prod.fst)
  last : taken.dropLast.countP slow < workers
  room : c.running.length ≤ workers
  done : ∀ entry ∈ c.delivered, slow entry.1 = false

theorem holding_start (hworkers : 0 < workers) : (start paths).Holding workers slow paths [] where
  order := rfl
  perm := .refl []
  last := hworkers
  room := Nat.zero_le _
  done _ h := absurd h List.not_mem_nil

theorem Holding.countP_taken (h : c.Holding workers slow paths taken) :
    taken.countP slow = c.running.countP slow := by
  have hdone : (c.delivered.map Prod.fst).countP slow = 0 := by
    refine List.countP_eq_zero.2 fun t ht => ?_
    obtain ⟨entry, hentry, rfl⟩ := List.mem_map.1 ht
    simp [h.done entry hentry]
  rw [h.perm.countP_eq, List.countP_append, hdone, Nat.add_zero]

theorem Holding.step (h : c.Holding workers slow paths taken)
    (hstep : HeldStep workers slow deliver c d) :
    ∃ taken, d.Holding workers slow paths taken := by
  obtain ⟨hmove, hdone⟩ := hstep
  cases hmove with
  | @take t waiting running delivered hroom =>
      have hcount := h.countP_taken
      have hle : running.countP slow ≤ running.length := List.countP_le_length
      refine ⟨taken ++ [t], ?_, ?_, ?_, hroom, hdone⟩
      · rw [List.append_assoc]
        exact h.order
      · exact (List.perm_append_singleton t taken).trans (h.perm.cons t)
      · rw [List.dropLast_concat]
        exact hcount ▸ hle.trans_lt hroom
  | @finish t waiting running delivered hmem hlate =>
      refine ⟨taken, h.order, ?_, h.last, ?_, hdone⟩
      · exact h.perm.trans (((List.perm_cons_erase hmem).append_right _).trans
          List.perm_middle.symm)
      · exact (List.length_erase_le).trans h.room

theorem HeldReached.holding (h : HeldReached workers slow deliver paths c) (hworkers : 0 < workers) :
    ∃ taken, c.Holding workers slow paths taken := by
  induction h with
  | refl => exact ⟨[], holding_start hworkers⟩
  | tail _ hstep ih =>
      obtain ⟨taken, hholding⟩ := ih
      exact hholding.step hstep

def remaining (c : Pool) : Nat :=
  2 * c.waiting.length + c.running.length

theorem remaining_lt (h : HeldStep workers slow deliver c d) : d.remaining < c.remaining := by
  obtain ⟨hmove, -⟩ := h
  cases hmove with
  | take _ =>
      simp only [remaining, List.length_cons]
      omega
  | finish hmem _ =>
      have hpos : 0 < _ := List.length_pos_of_mem hmem
      simp only [remaining, List.length_erase_of_mem hmem]
      omega

theorem exists_stalled (workers : Nat) (slow : Task → Bool) (deliver : String → Delivery)
    (c : Pool) :
    ∃ d, Relation.ReflTransGen (HeldStep workers slow deliver) c d ∧
      d.Stalled workers slow deliver := by
  by_cases hstalled : c.Stalled workers slow deliver
  · exact ⟨c, .refl, hstalled⟩
  · obtain ⟨next, hstep⟩ := not_forall_not.1 hstalled
    have hlt := remaining_lt hstep
    obtain ⟨d, hsteps, hd⟩ := exists_stalled workers slow deliver next
    exact ⟨d, .head hstep hsteps, hd⟩
termination_by c.remaining

theorem Holding.mem_tasks (h : c.Holding workers slow paths taken) {t : Task}
    (ht : t ∈ c.running) : t ∈ tasks paths := by
  rw [← h.order]
  exact List.mem_append_left _ (h.perm.mem_iff.2 (List.mem_append_left _ ht))

theorem Stalled.slow_of_running (hstalled : c.Stalled workers slow deliver)
    (h : c.Holding workers slow paths taken)
    (hcomes : ∀ t ∈ tasks paths, slow t = false → isLate (deliver t.1) = false) {t : Task}
    (ht : t ∈ c.running) : slow t = true := by
  by_contra hfast
  rw [Bool.not_eq_true] at hfast
  have hfinish : Step workers deliver c
      ⟨c.waiting, c.running.erase t, (t, deliver t.1) :: c.delivered⟩ :=
    .finish ht (hcomes t (h.mem_tasks ht) hfast)
  exact hstalled _ ⟨hfinish, List.forall_mem_cons.2 ⟨hfast, h.done⟩⟩

theorem Stalled.full_or_empty (hstalled : c.Stalled workers slow deliver)
    (h : c.Holding workers slow paths taken) :
    c.running.length = workers ∨ c.waiting = [] := by
  obtain ⟨waiting, running, delivered⟩ := c
  cases waiting with
  | nil => exact .inr rfl
  | cons t waiting =>
      refine .inl (Nat.le_antisymm h.room (not_lt.1 fun hroom => ?_))
      exact hstalled _ ⟨.take hroom, h.done⟩

theorem Stalled.cutsAt (hstalled : c.Stalled workers slow deliver)
    (h : c.Holding workers slow paths taken)
    (hcomes : ∀ t ∈ tasks paths, slow t = false → isLate (deliver t.1) = false) :
    CutsAt slow workers (tasks paths) taken := by
  have hkept : c.running.countP slow = c.running.length :=
    List.countP_eq_length.2 fun t ht => hstalled.slow_of_running h hcomes ht
  have hcount : taken.countP slow = c.running.length := h.countP_taken.trans hkept
  refine cutsAt_of_dropLast ⟨c.waiting, h.order⟩ h.last ?_
  rcases hstalled.full_or_empty h with hfull | hempty
  · exact .inl (hcount.trans hfull)
  · refine .inr ⟨hcount ▸ h.room, ?_⟩
    rw [← h.order, hempty, List.append_nil]

theorem Stalled.came_iff (hstalled : c.Stalled workers slow deliver)
    (h : c.Holding workers slow paths taken)
    (hcomes : ∀ t ∈ tasks paths, slow t = false → isLate (deliver t.1) = false) :
    c.Came path ↔ ∃ t ∈ taken, t.1 = path ∧ slow t = false := by
  constructor
  · rintro ⟨t, ht, hpath⟩
    obtain ⟨entry, hentry, rfl⟩ := List.mem_map.1 ht
    exact ⟨entry.1, h.perm.mem_iff.2 (List.mem_append_right _ ht), hpath, h.done entry hentry⟩
  · rintro ⟨t, ht, hpath, hfast⟩
    rcases List.mem_append.1 (h.perm.mem_iff.1 ht) with hrunning | hdelivered
    · rw [hstalled.slow_of_running h hcomes hrunning] at hfast
      exact absurd hfast (by simp)
    · exact ⟨t, hdelivered, hpath⟩

theorem Stalled.lookup_contents (hstalled : c.Stalled workers slow deliver)
    (h : c.Holding workers slow paths taken) (hsound : c.Sound deliver paths)
    (hcomes : ∀ t ∈ tasks paths, slow t = false → isLate (deliver t.1) = false) (path : String) :
    (c.contents paths).lookup path =
      if path ∈ paths then
        some (if ∃ t ∈ taken, t.1 = path ∧ slow t = false then textOf (deliver path) else "")
      else none := by
  by_cases hcame : c.Came path
  · rw [hsound.lookup_contents_of_came hcame, if_pos (hsound.came_mem hcame),
      if_pos ((hstalled.came_iff h hcomes).1 hcame)]
  · rw [lookup_contents_of_not_came hcame,
      if_neg (c := ∃ t ∈ taken, t.1 = path ∧ slow t = false) fun hfast =>
        hcame ((hstalled.came_iff h hcomes).2 hfast)]

theorem Stalled.text_eq (hstalled : c.Stalled workers slow deliver)
    (h : c.Holding workers slow paths taken) (hsound : c.Sound deliver paths)
    (hlate : ∀ t ∈ tasks paths, slow t = isLate (deliver t.1)) (path : String) :
    c.text paths path = if path ∈ taken.map Prod.fst then textOf (deliver path) else "" := by
  have hcomes : ∀ t ∈ tasks paths, slow t = false → isLate (deliver t.1) = false :=
    fun t ht hfast => (hlate t ht).symm.trans hfast
  have hslow : ∀ t ∈ taken, slow t = isLate (deliver t.1) := by
    intro t ht
    exact hlate t (h.order ▸ List.mem_append_left _ ht)
  by_cases hcame : c.Came path
  · obtain ⟨t, ht, hpath, -⟩ := (hstalled.came_iff h hcomes).1 hcame
    rw [hsound.text_of_came hcame, if_pos (List.mem_map.2 ⟨t, ht, hpath⟩)]
  · rw [text_of_not_came hcame]
    split
    · next hmem =>
        obtain ⟨t, ht, rfl⟩ := List.mem_map.1 hmem
        have hslowly : slow t = true := by
          by_contra hfast
          exact hcame ((hstalled.came_iff h hcomes).2 ⟨t, ht, rfl, by simpa using hfast⟩)
        rw [hslow t ht] at hslowly
        cases hdelivery : deliver t.1 with
        | late => rfl
        | _ => simp [hdelivery, isLate] at hslowly
    · rfl

end

end Pool

section

variable {slow : Task → Bool} {deliver : String → Delivery} {paths : List String}

theorem started_eq_of_cutsAt {workers : Nat} {cut : List Task}
    (hcut : CutsAt slow (workersFor workers paths) (tasks paths) cut)
    (hlate : ∀ t ∈ tasks paths, slow t = isLate (deliver t.1)) :
    started deliver workers paths = cut.map Prod.fst := by
  have hmarks : cutAt slow (workersFor workers paths) (tasks paths) =
      cutAt ((fun path => isLate (deliver path)) ∘ Prod.fst) (workersFor workers paths)
        (tasks paths) := cutAt_congr hlate _
  rw [started, takenBy_eq_cutAt, hcut.eq_cutAt, hmarks, ← cutAt_map, map_fst_tasks]

theorem read_before_timeout
    (hcomes : ∀ t ∈ tasks paths, slow t = false → isLate (deliver t.1) = false) (workers : Nat) :
    (∃ c, Pool.HeldReached (workersFor workers paths) slow deliver paths c ∧
      c.Stalled (workersFor workers paths) slow deliver) ∧
    ∀ c, Pool.HeldReached (workersFor workers paths) slow deliver paths c →
      c.Stalled (workersFor workers paths) slow deliver →
      ∃ cut, CutsAt slow (workersFor workers paths) (tasks paths) cut ∧
        cut ++ c.waiting = tasks paths ∧
        cut.Perm (c.running ++ c.delivered.map Prod.fst) ∧
        (∀ path, (c.contents paths).lookup path =
          if path ∈ paths then
            some (if ∃ t ∈ cut, t.1 = path ∧ slow t = false then textOf (deliver path) else "")
          else none) ∧
        ((tasks paths).countP slow < workersFor workers paths →
          ∀ t ∈ tasks paths, slow t = false →
            (c.contents paths).lookup t.1 = some (textOf (deliver t.1))) ∧
        ((∀ t ∈ tasks paths, slow t = isLate (deliver t.1)) →
          started deliver workers paths = cut.map Prod.fst ∧
            content deliver workers paths = c.text paths) := by
  refine ⟨Pool.exists_stalled _ slow deliver (Pool.start paths), fun c hreached hstalled => ?_⟩
  obtain ⟨cut, hholding⟩ := hreached.holding (workersFor_pos workers paths)
  have hsound : c.Sound deliver paths := Pool.Reached.sound hreached.reached
  have hcut := hstalled.cutsAt hholding hcomes
  have htexts := hstalled.lookup_contents hholding hsound hcomes
  refine ⟨cut, hcut, hholding.order, hholding.perm, htexts, ?_, fun hlate => ?_⟩
  · intro hfew t ht hfast
    have hmem : t.1 ∈ paths := mem_iff_exists_task.2 ⟨t, ht, rfl⟩
    rw [← hcut.whole hfew] at ht
    rw [htexts, if_pos hmem, if_pos ⟨t, ht, rfl, hfast⟩]
  · have hstarted := started_eq_of_cutsAt hcut hlate
    refine ⟨hstarted, funext fun path => ?_⟩
    rw [content, hstarted, hstalled.text_eq hholding hsound hlate]

end

def unsteadyPaths : List String :=
  ["a.js", "b.js", "a.js", "c.js"]

def isUnsteady (t : Task) : Bool :=
  t = ("b.js", 1) || t = ("a.js", 2)

def unsteadyTexts (path : String) : Delivery :=
  .text ("// " ++ path)

theorem unsteady_read_before_timeout :
    (∀ t ∈ tasks unsteadyPaths, isUnsteady t = false → isLate (unsteadyTexts t.1) = false) ∧
    ∃ c, Pool.HeldReached (workersFor 2 unsteadyPaths) isUnsteady unsteadyTexts unsteadyPaths c ∧
      c.Stalled (workersFor 2 unsteadyPaths) isUnsteady unsteadyTexts ∧
      c.waiting = [("c.js", 3)] ∧
      (c.contents unsteadyPaths).lookup "a.js" = some "// a.js" ∧
      (c.contents unsteadyPaths).lookup "b.js" = some "" ∧
      (c.contents unsteadyPaths).lookup "c.js" = some "" := by
  have hcomes : ∀ t ∈ tasks unsteadyPaths, isUnsteady t = false →
      isLate (unsteadyTexts t.1) = false := by decide
  obtain ⟨⟨c, hreached, hstalled⟩, hcuts⟩ := read_before_timeout hcomes 2
  obtain ⟨cut, hcut, horder, -, htexts, -⟩ := hcuts c hreached hstalled
  obtain rfl : cut = [("a.js", 0), ("b.js", 1), ("a.js", 2)] := hcut.eq_cutAt.trans (by decide)
  refine ⟨hcomes, c, hreached, hstalled, List.append_cancel_left horder, ?_, ?_, ?_⟩
  · rw [htexts]
    decide
  · rw [htexts]
    decide
  · rw [htexts]
    decide

end SchemaDiagram.Fetching
