import Mathlib.Data.List.DropRight
import ScriptPool.Proofs.Pool.Sweeping
import ScriptPool.Proofs.Scaling.Decisions

/-!
# Growing and shrinking

The scaler decides by what it sees of a pool: the interpreters on loan and the idle ones.  Growing
and shrinking go by the occupied slots and the free permits, and look at them anew for every
interpreter.  The two agree as long as nothing is in between: no creation occupies a slot, and no
permit is on its way to a request.  Then what the scaler sees is what there is, so whatever it asks
for can be done, and is done in full.

## What is here

* `shrunk` — a pool after interpreters at the end of the queue were discarded.
* `grow_eq` and `run_shrink` — what growing and shrinking come to, however much is asked for.
* `apply_eq` — a decision that there is room for is carried out in full.
* `sizing_of_run` — **growing, shrinking, and a look of the scaler**, in an open pool.
-/

set_option autoImplicit false

namespace ScriptPool

/-- The scaler notes that a decision was carried out in full. -/
def Scaler.noting (k : Scaler) : ScaleDecision → Scaler
  | .up n => k.noteScaleUp n
  | .down n => k.noteScaleDown n
  | .keep => k

namespace Pool

/-- Counts idle interpreters that were discarded on behalf of the scaler. -/
def noteScaleDowns (p : Pool) (n : Nat) : Pool :=
  { p with counters := { p.counters with scaleDowns := p.counters.scaleDowns + n } }

/-- A pool after so many interpreters at the end of the queue were discarded on behalf of the
scaler. -/
def shrunk (p : Pool) (n : Nat) : Pool :=
  (p.relieved (p.idle.rtake n) (p.idle.rdrop n)).noteScaleDowns n

/-- A pool after a decision was carried out in full. -/
def resized (p : Pool) : ScaleDecision → Pool
  | .up n => p.planning .growth n
  | .down n => p.shrunk n
  | .keep => p

/-- The interpreters that a decision costs, in the order in which they go. -/
def givenUp (p : Pool) : ScaleDecision → List Interpreter
  | .down n => (p.idle.rtake n).reverse
  | _ => []

/-- Is there room for a decision, as the pool itself counts? -/
def HasRoom (p : Pool) : ScaleDecision → Prop
  | .up n => n ≤ p.config.maxSize - p.total
  | .down n => n ≤ min (p.total - p.config.minSize) p.permits
  | .keep => True

variable {p : Pool} {w : World} {i : Interpreter} {l : List Interpreter}

/-! ## Growing

Slots are reserved one at a time, and each time it is looked whether there is one left.  Nothing
else happens in between, so the number is known from the start. -/

/-- **Growing** plans as many creations as asked for, or as there are slots. -/
theorem grow_eq (n : Nat) : ∀ {p : Pool}, p.closed = false →
    p.grow n = (min n (p.config.maxSize - p.total),
      p.planning .growth (min n (p.config.maxSize - p.total))) := by
  induction n with
  | zero => exact fun _ => by rw [grow, Nat.zero_min, planning_zero]
  | succ n ih =>
    intro p hopen
    rw [grow, plan?_open hopen]
    by_cases hlt : p.total < p.config.maxSize
    · have hmin : min (n + 1) (p.config.maxSize - p.total)
          = 1 + min n (p.config.maxSize - (p.total + 1)) := by omega
      rw [if_pos hlt, hmin, ← planning_planning]
      dsimp only
      rw [ih (p := p.planning .growth 1) hopen]
      exact Prod.ext (Nat.add_comm _ _) rfl
    · have hmin : min (n + 1) (p.config.maxSize - p.total) = 0 := by omega
      rw [if_neg hlt, hmin, planning_zero]

/-! ## Shrinking

An interpreter is taken from the end of the queue against a permit, as long as there is one and the
pool is not at its minimal size.  The queue, the permits and the size go down together, so it stops
with the first of them to run out. -/

theorem isAmong_append (l l' : List Interpreter) (id : Nat) :
    isAmong (l ++ l') id = (isAmong l id || isAmong l' id) := by
  rw [isAmong, isAmong, isAmong, List.map_append, List.contains_append]

theorem relieved_nil (p : Pool) : p.relieved [] p.idle = p := by
  have hloads : (p.loads.filter fun entry => !isAmong [] entry.1) = p.loads :=
    List.filter_eq_self.2 fun _ _ => rfl
  rw [relieved, hloads]
  rfl

theorem relieved_relieved (p : Pool) (out kept out' kept' : List Interpreter) :
    (p.relieved out kept).relieved out' kept' = p.relieved (out' ++ out) kept' := by
  have hloads : ((p.loads.filter fun entry => !isAmong out entry.1).filter
      fun entry => !isAmong out' entry.1) = p.loads.filter fun entry => !isAmong (out' ++ out) entry.1 := by
    rw [List.filter_filter]
    refine List.filter_congr fun entry _ => ?_
    rw [isAmong_append, Bool.not_or]
  simp only [relieved, hloads, List.length_append, Nat.add_comm out'.length, Nat.sub_sub,
    Nat.add_assoc]

@[simp] theorem shrunk_zero (p : Pool) : p.shrunk 0 = p := by
  rw [shrunk, List.rtake_zero, List.rdrop_zero, relieved_nil]
  rfl

/-- The last interpreter goes first. -/
theorem shrunk_succ (h : p.idle = l ++ [i]) (n : Nat) :
    ((p.relieved [i] l).noteScaleDowns 1).shrunk n = p.shrunk (n + 1) := by
  have hout : p.idle.rtake (n + 1) = l.rtake n ++ [i] := by rw [h, List.rtake_concat_succ]
  have hkept : p.idle.rdrop (n + 1) = l.rdrop n := by rw [h, List.rdrop_concat_succ]
  rw [shrunk, shrunk, hout, hkept, ← relieved_relieved p [i] l, Nat.add_comm n 1]
  simp only [noteScaleDowns, relieved, Nat.add_assoc]

/-- The books that shrinking relies on. -/
structure Queued (p : Pool) : Prop where
  drained : p.drained = false
  available : p.available = p.idle.length
  permits : p.permits ≤ p.idle.length
  total : p.idle.length ≤ p.total

theorem Queued.shrunk_one (h : Queued p) (hidle : p.idle = l ++ [i]) :
    Queued ((p.relieved [i] l).noteScaleDowns 1) := by
  obtain ⟨hdrained, havailable, hpermits, htotal⟩ := h
  rw [hidle, List.length_append, List.length_singleton] at havailable hpermits htotal
  exact {
    drained := hdrained
    available := by show p.available - 1 = l.length; omega
    permits := by show p.permits - 1 ≤ l.length; omega
    total := by show l.length ≤ p.total - 1; omega }

/-- One interpreter goes, and then the others. -/
theorem run_shrink_succ (h : Queued p) (hmore : p.config.minSize < p.total) (hfree : 0 < p.permits)
    (hidle : p.idle = l ++ [i]) (n : Nat) :
    (p.shrink (n + 1)).run w =
      let r := (((p.relieved [i] l).noteScaleDowns 1).shrink n).run (w.endScope i.state)
      ((r.1.1 + 1, r.1.2), r.2) := by
  obtain ⟨k, hk⟩ : ∃ k, p.permits = k + 1 := ⟨p.permits - 1, by omega⟩
  have hlen : p.idle.length = l.length + 1 := by rw [hidle, List.length_append]; rfl
  have havailable : lowered p.available 1 = p.available - 1 :=
    lowered_of_le (by rw [h.available, hlen]; omega)
  have htotal : lowered p.total 1 = p.total - 1 := lowered_of_le (by omega)
  have hloads : p.loads.remove i.id = p.loads.filter fun entry => !isAmong [i] entry.1 :=
    foldl_remove [i] p.loads
  have hpermit : p.takePermit? = some { p with permits := p.permits - 1 } := by
    rw [takePermit?, h.drained, if_neg Bool.false_ne_true, hk]
    rfl
  have hlast : p.idle.getLast? = some i := by rw [hidle, List.getLast?_concat]
  have hrest : p.idle.dropLast = l := by rw [hidle, List.dropLast_concat]
  rw [shrink, if_neg (by omega), hpermit]
  simp only [hlast, hrest, havailable]
  rw [relieved, ← hloads, List.length_singleton, ← htotal]
  rfl

/-- **Shrinking** discards as many interpreters as asked for, but no more than there are above the
minimal size and than there are free permits, from the end of the queue. -/
theorem run_shrink (n : Nat) : ∀ {p : Pool} {w : World}, Queued p →
    let m := min n (min (p.total - p.config.minSize) p.permits)
    (p.shrink n).run w
      = ((m, p.shrunk m), w.endScopes ((p.idle.rtake m).reverse.map (·.state))) := by
  induction n with
  | zero =>
    intro p w _
    simp only [Nat.zero_min, shrunk_zero, List.rtake_zero]
    rfl
  | succ n ih =>
    intro p w h
    by_cases hroom : p.config.minSize < p.total ∧ 0 < p.permits
    · obtain ⟨hmore, hfree⟩ := hroom
      have hpermits := h.permits
      obtain ⟨l, i, hidle⟩ : ∃ l i, p.idle = l ++ [i] := by
        refine (List.eq_nil_or_concat' p.idle).resolve_left fun hnil => ?_
        rw [hnil, List.length_nil] at hpermits
        omega
      have hmin : min (n + 1) (min (p.total - p.config.minSize) p.permits)
          = min n (min (p.total - 1 - p.config.minSize) (p.permits - 1)) + 1 := by omega
      have hrest := ih (w := w.endScope i.state) (h.shrunk_one hidle)
      rw [run_shrink_succ h hmore hfree hidle, hrest, hmin]
      dsimp only
      rw [hidle, List.rtake_concat_succ, List.reverse_concat, ← shrunk_succ hidle]
      rfl
    · have hmin : min (n + 1) (min (p.total - p.config.minSize) p.permits) = 0 := by omega
      rw [hmin]
      simp only [shrunk_zero, List.rtake_zero]
      rw [shrink]
      by_cases hmore : p.total ≤ p.config.minSize
      · rw [if_pos hmore]
        rfl
      · have hnone : p.permits = 0 := by omega
        rw [if_neg hmore, takePermit?, h.drained, if_neg Bool.false_ne_true, hnone]
        rfl

/-! ## Looks of the scaler

A decision never asks for more than the scaler has seen.  What is left to show is that the pool has
what the scaler sees. -/

variable {born : List Interpreter} {d : ScaleDecision} {k : Scaler}

theorem Balanced.queued (h : Balanced born p 0 0 []) (hopen : p.closed = false) : Queued p where
  drained := h.drained_eq_false hopen
  available := h.available
  permits := Nat.le.intro (h.permits_eq hopen)
  total := by
    have htotal := h.total
    omega

/-- **A decision that there is room for is carried out in full.** -/
theorem apply_eq (h : Queued p) (hopen : p.closed = false) (hroom : p.HasRoom d) (k : Scaler)
    (now : Nat) (w : World) :
    Scaler.apply (scaleTarget now) k d (p, w)
      = (k.noting d, p.resized d, w.endScopes ((p.givenUp d).map (·.state))) := by
  cases d with
  | up n =>
    have hgrow := grow_eq n hopen
    rw [Nat.min_eq_left hroom] at hgrow
    simp only [Scaler.apply, scaleTarget, hgrow]
    rfl
  | down n =>
    have hshrink := run_shrink n h (w := w)
    rw [Nat.min_eq_left hroom] at hshrink
    simp only [Scaler.apply, scaleTarget, hshrink]
    rfl
  | keep => rfl

/-- A look forgets requests that were long ago, and nothing else. -/
theorem Queued.snapshot (h : Queued p) (now : Nat) : Queued (p.snapshot now).2 where
  drained := h.drained
  available := h.available
  permits := h.permits
  total := h.total

/-- What the scaler counts is what the pool counts, if all slots are occupied by interpreters. -/
theorem Balanced.size_snapshot (h : Balanced born p 0 0 []) (hslots : p.reserved = 0) (now : Nat) :
    (p.snapshot now).1.size = p.total := by
  have htotal := h.total
  have havailable := h.available
  have hinUse := h.inUse
  show p.inUse + p.available = p.total
  omega

/-- So whatever the scaler asks for can be done, if no permit is promised either. -/
theorem Balanced.hasRoom (h : Balanced born p 0 0 []) (hopen : p.closed = false)
    (hslots : p.reserved = 0) (hgranted : p.granted = []) (now : Nat)
    (hd : k.decision (p.snapshot now).1 = d) : (p.snapshot now).2.HasRoom d := by
  have hsize := h.size_snapshot hslots now
  have hpermits := h.permits_eq hopen
  rw [hgranted, List.length_nil, ← h.available] at hpermits
  cases d with
  | up n =>
    have hfits := (Scaler.up_fits hd).2
    rw [Scaler.headroom, hsize] at hfits
    exact hfits.trans (Nat.min_le_right _ _)
  | down n =>
    have hfits := (Scaler.down_fits hd).2
    rw [Scaler.removable, hsize] at hfits
    show n ≤ min (p.total - p.config.minSize) p.permits
    rw [show p.permits = p.available from hpermits, Nat.min_comm]
    exact hfits
  | keep => trivial

/-- So many interpreters are at the end of the queue, if that many permits are free. -/
theorem Queued.length_rtake (h : Queued p) {n : Nat} (hn : n ≤ p.permits) :
    (p.idle.rtake n).length = n := by
  have hpermits := h.permits
  rw [List.rtake, List.length_drop]
  omega

/-- The pool gets the size that the scaler expects. -/
theorem Queued.total_resized (h : Queued p) (hroom : p.HasRoom d) {s : PoolSnapshot}
    (hsize : s.size = p.total) : (p.resized d).total = s.sizeAfter d := by
  cases d with
  | up n => exact congrArg (· + n) hsize.symm
  | down n =>
    have hlen := h.length_rtake (hroom.trans (Nat.min_le_right _ _))
    show p.total - (p.idle.rtake n).length = s.size - n
    rw [hlen, hsize]
  | keep => exact hsize.symm

/-- **Growing, shrinking, and a look of the scaler**, in an open pool at any moment of a run.

* As many creations are planned as asked for, or as there are slots for.
* As many interpreters are discarded as asked for, but no more than there are above the minimal size
  and than there are free permits.  They are the last ones in the queue; the others stay as they
  are, and so does what is on loan.
* If all slots are occupied by interpreters and no permit is promised, the scaler's decision is
  carried out in full, and the pool stays within its limits. -/
theorem sizing_of_run {config : PoolConfig} {opened : List Interpreter} {ms : List Move}
    (h : Run config opened ms p) (hopen : p.closed = false) (w : World) :
    (∀ n, let m := min n (p.config.maxSize - p.total)
      p.grow n = (m, p.planning .growth m))
    ∧ (∀ n, let m := min n (min (p.total - p.config.minSize) p.permits)
      (p.shrink n).run w
          = ((m, p.shrunk m), w.endScopes ((p.idle.rtake m).reverse.map (·.state)))
        ∧ (p.shrunk m).idle ++ p.idle.rtake m = p.idle ∧ (p.idle.rtake m).length = m
        ∧ (p.shrunk m).loans = p.loans)
    ∧ (p.reserved = 0 → p.granted = [] → ∀ (k : Scaler) (now : Nat) (d : ScaleDecision),
      let seen := (p.snapshot now).1
      let q := (p.snapshot now).2.resized d
      (k.tick seen).1 = some d →
        Scaler.evaluate (scaleTarget now) k (p, w)
            = (.decided d, (k.tick seen).2.noting d, q, w.endScopes ((p.givenUp d).map (·.state)))
          ∧ q.total = seen.sizeAfter d ∧ seen.size = p.total
          ∧ q.total ≤ p.config.maxSize
          ∧ (p.config.minSize ≤ p.total → p.config.minSize ≤ q.total)) := by
  have hb := h.balanced
  have hq := hb.queued hopen
  refine ⟨fun n => grow_eq n hopen, fun n => ⟨run_shrink n hq, ?_, ?_, rfl⟩, ?_⟩
  · exact List.take_append_drop _ _
  · exact hq.length_rtake ((Nat.min_le_right _ _).trans (Nat.min_le_right _ _))
  · intro hslots hgranted k now d seen q hd
    have hsize : seen.size = p.total := hb.size_snapshot hslots now
    have hdecision : k.decision seen = d := by
      rw [Scaler.tick_fst, Option.map_eq_some_iff] at hd
      exact hd.choose_spec.2
    have hroom := hb.hasRoom hopen hslots hgranted now hdecision
    have happly := apply_eq (hq.snapshot now) hopen hroom (k.tick seen).2 now w
    have htotal : q.total = seen.sizeAfter d :=
      (hq.snapshot now).total_resized hroom hsize
    obtain ⟨hmin, hmax, -⟩ := Scaler.sizeAfter_decision k seen
    rw [hdecision, hsize, ← htotal] at hmin hmax
    refine ⟨?_, htotal, hsize, hmax hb.bounded, hmin⟩
    have hsnapshot : (scaleTarget now).snapshot (p, w) = (some seen, (p.snapshot now).2, w) := by
      simp only [scaleTarget, hopen, Bool.false_eq_true, if_false]
      rfl
    have htick : k.tick seen = (some d, (k.tick seen).2) := Prod.ext hd rfl
    rw [Scaler.evaluate, hsnapshot]
    dsimp only
    rw [htick]
    dsimp only
    rw [happly]
    rfl

/-- Settings under which a pool grows unless it is expected to be mostly idle. -/
def hasty : ScalerSettings :=
  { interval := .ofSecs 30, windowSize := 2, thresholds := ⟨0.4, 0.2⟩, maxPredictedScaleUp := 5,
    adaptive := false, tunables := {} }

/-- A pool with one idle interpreter, and room for another.  Asked for five, it grows by one; asked
to give up five, it keeps the one that it has to have; and when a scaler asks for one, one is
planned.
-/
theorem sizing_of_run_up : ∃ p, Run pair [firstMade] [] p ∧ p.closed = false ∧ p.reserved = 0
    ∧ p.granted = [] ∧ ((Scaler.new hasty).tick (p.snapshot 0).1).1 = some (.up 1)
    ∧ (p.grow 5).1 = 1
    ∧ ∀ w, ((p.shrink 5).run w).1.1 = 0
      ∧ (Scaler.evaluate (scaleTarget 0) (.new hasty) (p, w)).1 = .decided (.up 1)
      ∧ (Scaler.evaluate (scaleTarget 0) (.new hasty) (p, w)).2.2.1.planned = [.growth] := by
  have hopening : Opening pair [firstMade] _ :=
    @Opening.more pair [] _ _ _ firstMade 0 default _ (.empty rfl) Nat.zero_lt_one rfl rfl rfl
  have hrun : Run pair [firstMade] [] _ := .start ⟨hopening, Nat.le_refl _⟩
  obtain ⟨p, h, hopen, hslots, hgranted, hroom, hspare, hplanned, hup⟩ :
      ∃ p, Run pair [firstMade] [] p ∧ p.closed = false ∧ p.reserved = 0 ∧ p.granted = []
        ∧ p.config.maxSize - p.total = 1 ∧ p.total - p.config.minSize = 0 ∧ p.planned = []
        ∧ ((Scaler.new hasty).tick (p.snapshot 0).1).1 = some (.up 1) :=
    ⟨_, hrun, rfl, rfl, rfl, rfl, rfl, rfl, by decide +kernel⟩
  refine ⟨p, h, hopen, hslots, hgranted, hup, ?_, fun w => ?_⟩
  · rw [(sizing_of_run h hopen default).1 5, hroom]
    rfl
  · obtain ⟨-, hshrink, hlook⟩ := sizing_of_run h hopen w
    have hevaluate := (hlook hslots hgranted (.new hasty) 0 (.up 1) hup).1
    refine ⟨?_, congrArg (·.1) hevaluate, ?_⟩
    · rw [(hshrink 5).1, hspare]
      rfl
    · rw [hevaluate]
      show p.planned ++ [.growth] = [.growth]
      rw [hplanned, List.nil_append]

end Pool
end ScriptPool
