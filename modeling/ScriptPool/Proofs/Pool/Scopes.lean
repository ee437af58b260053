import ScriptPool.Proofs.Interpreter.Functions
import ScriptPool.Proofs.Pool.Clean
import ScriptPool.Proofs.Pool.Ending

/-!
# Functions die with their loan

A borrower may take functions of an interpreter with him, and hand them around, and they are to be
worth nothing once he has handed the interpreter back.  Whichever way an interpreter goes on its
return — back into the queue, or out of the pool because it is worn, cannot be reset, or the pool is
closed — the scope of its guest state ends, and no other move ends the scope of an interpreter that
is on loan.

## What is here

* `World.EndsOnly`, `World.Ends` — which scopes end between two worlds.
* `ends_giveBack` — **every return ends the scope of the interpreter that is handed back**, and no
  other.
* `Move.closes` — any other move ends only scopes of interpreters that are not on loan.
* `Walk` — a run of a pool in a world: moves that are made one after the other in the worlds that
  they leave, and what happens to the world in between.
* `Walk.loan` — an interpreter on loan stays so, and in its scope, until it is handed back.
* `functions_of_walk` — **functions that were handed out during a loan work as long as the loan
  lasts, and have expired from then on.**
-/

set_option autoImplicit false

namespace ScriptPool

/-! ## Which scopes end -/

namespace World

/-- No scope ends but those of certain states. -/
def EndsOnly (P : Nat → Prop) (u w : World) : Prop :=
  ∃ ended, u.Becomes ended w ∧ ∀ s ∈ ended, P s

/-- The scope of a state ends, and no other. -/
def Ends (s : Nat) (u w : World) : Prop :=
  ∃ ended, u.Becomes ended w ∧ s ∈ ended ∧ ∀ s' ∈ ended, s' = s

instance (P : Nat → Prop) : IsPreorder World (EndsOnly P) where
  refl u := ⟨[], .refl, fun _ h => absurd h List.not_mem_nil⟩
  trans _ _ _ := by
    rintro ⟨ended, h, hP⟩ ⟨ended', h', hP'⟩
    exact ⟨_, h.trans h', fun s hs => (List.mem_append.1 hs).elim (hP' s) (hP s)⟩

variable {s : Nat} {u v w : World}

theorem Ends.endsOnly (h : Ends s u w) : EndsOnly (· = s) u w :=
  let ⟨ended, hbecomes, _, honly⟩ := h
  ⟨ended, hbecomes, honly⟩

theorem allowsEnds_endsOnly (P : Nat → Prop) : AllowsEnds P (EndsOnly P) := fun s _ hs =>
  ⟨[s], Becomes.refl.ends s, fun _ h => (List.mem_singleton.1 h).symm ▸ hs⟩

theorem Ends.trans (h : Ends s u v) (h' : EndsOnly (· = s) v w) : Ends s u w := by
  obtain ⟨ended, hbecomes, hmem, honly⟩ := h
  obtain ⟨ended', hbecomes', honly'⟩ := h'
  exact ⟨_, hbecomes.trans hbecomes', List.mem_append_right _ hmem,
    fun s hs => (List.mem_append.1 hs).elim (honly' s) (honly s)⟩

end World

namespace Transition

variable {α β : Type} {t : Transition α} {f : α → Transition β}

/-- A scope that has ended in a first step may end again in a second one. -/
theorem ends_bind {s : Nat} {post : α → Prop} (ht : Keeps (World.Ends s) t) (hpost : Ensures t post)
    (hf : ∀ a, post a → Keeps (World.EndsOnly (· = s)) (f a)) : Keeps (World.Ends s) (t >>= f) :=
  fun w => (ht w).trans (hf _ (hpost w) _)

end Transition

namespace Pool

open Transition (Ensures)

variable {P : Nat → Prop} {p q : Pool} {i : Interpreter}

/-! ## Returns -/

theorem ends_discard (p : Pool) (i : Interpreter) :
    Transition.Keeps (World.Ends i.state) (p.discard i) := fun w =>
  ⟨_, i.becomes_discard w, List.mem_cons_self, fun _ h => List.mem_singleton.1 h⟩

/-- An interpreter that is discarded on its return. -/
theorem ends_recycle (p : Pool) (i : Interpreter) :
    Transition.Keeps (World.Ends i.state) (p.recycle i) :=
  Transition.ends_bind (ends_discard _ i) (Transition.ensures_true _) fun _ _ =>
    Transition.keeps_pure _

theorem ends_reset (i : Interpreter) : Transition.Keeps (World.Ends i.state) i.reset := fun w =>
  ⟨_, i.becomes_reset w, List.mem_cons_self, fun _ h => List.mem_singleton.1 h⟩

theorem ends_takeBack (p : Pool) (i : Interpreter) (now : Nat) :
    Transition.Keeps (World.Ends i.state) (p.takeBack i now) := by
  rw [takeBack]
  show Transition.Keeps _ (if (p.endLoan i.id now).closed then _ else _)
  split
  · exact ends_discard _ i
  · split
    · exact ends_recycle _ i
    · refine Transition.ends_bind (ends_reset i) i.ensures_reset fun r hr => ?_
      cases hr with
      | failed e => exact fun w => (ends_recycle _ i w).endsOnly
      | succeeded untainted =>
        exact ending_addIdle (i := ({ i with wasReset := true } : Interpreter).handedBack now)
          (World.allowsEnds_endsOnly _) _ rfl

/-- **Every return ends the scope of the interpreter that is handed back**, whether it is reset,
cannot be reset, is worn, or comes back to a closed pool; and it ends no other. -/
theorem ends_giveBack {id : Nat} (hi : p.loan? id = some i) (now : Nat) :
    Transition.Keeps (World.Ends i.state) (p.giveBack id now) := by
  rw [giveBack, hi]
  exact ends_takeBack p i now

/-! ## Moves

Each move has its own bound on the scopes that may end by it.  A return has to end one, a borrower
can end his own, and everything else is confined to interpreters that are not on loan. -/

/-- What somebody does with an interpreter on loan ends no scope. -/
def KeepsScope (use : Interpreter → Transition (Unit × Interpreter)) : Prop :=
  ∀ i, Transition.Keeps (fun u w => u.Becomes [] w) (use i)

/-- Running a script ends no scope. -/
theorem keepsScope_run (script : Script) : KeepsScope (droppingResult fun i => i.run script) :=
  fun i _ => World.Becomes.refl.step (.run i script)

/-- Nor does executing one with values of the host. -/
theorem keepsScope_execute (c : Converter) (script : Script) (globals : List (String × Value)) :
    KeepsScope (droppingResult fun i => i.execute c script globals) :=
  fun i _ => World.Becomes.refl.step (.execute i c script globals)

/-- A move that can occur in a world, given the interpreters that have come into being so far.  A
borrower may reset his interpreter, but he cannot end other scopes, and a new interpreter has a
guest state of its own. -/
def Move.Proper (born : List Interpreter) (w : World) : Move → Prop
  | .onLoan _ use => ∀ i, Transition.Keeps (World.EndsOnly (· = i.state)) (use i)
  | .endCreation _ (.ok i) => i.state < w.states.size ∧ i.state ∉ born.map (·.state)
  | _ => True

/-- Which scopes end by a move: by a return, that of the interpreter that is handed back; by what a
borrower does, that of his interpreter, if any; and by other moves, those of interpreters that are
not on loan. -/
def Move.Closes (p : Pool) (ended : List Nat) : Move → Prop
  | .giveBack id _ => ∃ i, p.loan? id = some i ∧ i.state ∈ ended ∧ ∀ s ∈ ended, s = i.state
  | .onLoan id use => ∃ i, p.loan? id = some i ∧ (∀ s ∈ ended, s = i.state)
      ∧ (KeepsScope use → ended = [])
  | _ => ∀ s ∈ ended, Unlent p s

/-- **No move but a return ends the scope of an interpreter that is on loan**, unless its borrower
does. -/
theorem Move.closes {born : List Interpreter} {m : Move} {w w' : World} (ha : m.Allowed p)
    (hp : m.Proper born w) (hrun : (m.apply p).run w = (q, w')) :
    ∃ ended, w.Becomes ended w' ∧ m.Closes p ended := by
  have hkeep : ∀ {R : World → World → Prop}, Transition.Keeps R (m.apply p) → R w w' := fun h => by
    have hw := h w
    rwa [hrun] at hw
  have hends : m.IsInternal → ∃ ended, w.Becomes ended w' ∧ ∀ s ∈ ended, Unlent p s := fun hm =>
    hkeep (Move.ending hm ha (World.allowsEnds_endsOnly (Unlent p)))
  cases m with
  | giveBack id now =>
    obtain ⟨i, hi⟩ := exists_loan? ha
    obtain ⟨ended, hbecomes, hmem, honly⟩ := hkeep (ends_giveBack hi now)
    exact ⟨ended, hbecomes, i, hi, hmem, honly⟩
  | onLoan id use =>
    obtain ⟨i, hi⟩ := exists_loan? ha.1
    have hw : ((use i).run w).2 = w' := by
      have hw : ((p.onLoan id use).run w).2 = w' := congrArg Prod.snd hrun
      rw [← hw, Pool.onLoan, hi]
      rfl
    by_cases hkeeps : KeepsScope use
    · exact ⟨[], hw ▸ hkeeps i w, i, hi, fun _ h => absurd h List.not_mem_nil, fun _ => rfl⟩
    · obtain ⟨ended, hbecomes, honly⟩ := hp i w
      exact ⟨ended, hw ▸ hbecomes, i, hi, honly, fun h => absurd h hkeeps⟩
  | endCreation id outcome =>
    have hnone : Transition.Keeps (World.EndsOnly (Unlent p))
      ((Move.endCreation id outcome).apply p) := Transition.keeps_pure _
    exact hkeep hnone
  | _ => exact hends trivial

/-! ## Runs in a world -/

/-- Every interpreter has a guest state of its own. -/
structure Housed (born : List Interpreter) (w : World) : Prop where
  distinct : (born.map (·.state)).Nodup
  there : ∀ i ∈ born, i.state < w.states.size

/-- A run of a pool in a world, with the moves made so far, the latest first.  In between, anything
may happen to the world that does not end the scope of an interpreter of the pool: functions are
called, values are converted, other interpreters are made, used and let go of, in other pools or on
their own. -/
inductive Walk (born : List Interpreter) (start : Pool) (u : World) :
    List Move → Pool → World → Prop where
  | refl : Walk born start u [] start u
  | move {ms : List Move} {p q : Pool} {v w : World} {m : Move} (h : Walk born start u ms p v)
      (allowed : m.Allowed p) (proper : m.Proper (madeIn born ms) v)
      (hrun : (m.apply p).run v = (q, w)) : Walk born start u (m :: ms) q w
  | meanwhile {ms : List Move} {p : Pool} {v w : World} {ended : List Nat}
      (h : Walk born start u ms p v) (d : v.Becomes ended w)
      (apart : ∀ s ∈ ended, s ∉ (madeIn born ms).map (·.state)) : Walk born start u ms p w

variable {born opened : List Interpreter} {start : Pool} {u v w : World} {ms : List Move} {m : Move}
  {j : Interpreter} {id : Nat}

theorem Opened.walk {config : PoolConfig} (_ : Opened config opened p) (u : World) :
    Walk opened p u [] p u := .refl

theorem madeIn_cons (born : List Interpreter) (m : Move) (ms : List Move) :
    madeIn born (m :: ms) = m.made?.toList ++ madeIn born ms := by
  rw [madeIn, List.filterMap_cons, madeIn]
  cases m.made? <;> rfl

theorem Housed.mono (h : Housed born v) (hw : v.states.size ≤ w.states.size) : Housed born w :=
  ⟨h.distinct, fun i hi => Nat.lt_of_lt_of_le (h.there i hi) hw⟩

/-- Interpreters with one state have one number. -/
theorem Housed.id_eq (h : Housed born w) (hi : Stems born i) (hj : Stems born j)
    (hstate : i.state = j.state) : i.id = j.id := by
  obtain ⟨a, ha, haid, hastate⟩ := hi
  obtain ⟨b, hb, hbid, hbstate⟩ := hj
  obtain rfl : a = b := List.inj_on_of_nodup_map h.distinct ha hb
    (hastate.trans (hstate.trans hbstate.symm))
  exact haid.symm.trans hbid

/-- Interpreters with one number have one state. -/
theorem Balanced.state_eq (h : Balanced born p 0 0 []) (hi : Stems born i) (hj : Stems born j)
    (hid : i.id = j.id) : i.state = j.state := by
  obtain ⟨a, ha, haid, hastate⟩ := hi
  obtain ⟨b, hb, hbid, hbstate⟩ := hj
  obtain rfl : a = b := List.inj_on_of_nodup_map h.distinct.nodup ha hb
    (haid.trans (hid.trans hbid.symm))
  exact hastate.symm.trans hbstate

/-- What the pools and worlds of a run satisfy. -/
structure Sound (born : List Interpreter) (p : Pool) (w : World) : Prop where
  balanced : Balanced born p 0 0 []
  housed : Housed born w
  careful : w.IsCareful

theorem Sound.becomes {ended : List Nat} (h : Sound born p v) (d : v.Becomes ended w) :
    Sound born p w :=
  ⟨h.balanced, h.housed.mono (d.follows h.careful).states, (d.follows h.careful).careful⟩

theorem Sound.move (h : Sound born p v) (ha : m.Allowed p) (hp : m.Proper born v)
    (hrun : (m.apply p).run v = (q, w)) : Sound (m.made?.toList ++ born) q w := by
  obtain ⟨ended, hbecomes, -⟩ := Move.closes ha hp hrun
  have hsound := h.becomes hbecomes
  refine ⟨Step.balanced h.balanced ⟨ha, v, w, hrun⟩, ?_, hsound.careful⟩
  cases hm : m.made? with
  | none => exact hsound.housed
  | some i =>
    obtain ⟨id, rfl⟩ : ∃ id, m = .endCreation id (.ok i) := by
      cases m with
      | endCreation id outcome =>
        cases outcome with
        | error e => cases hm
        | ok j => exact ⟨id, by rw [show j = i from Option.some.inj hm]⟩
      | _ => cases hm
    refine ⟨List.nodup_cons.2 ⟨hp.2, hsound.housed.distinct⟩, fun j hj => ?_⟩
    rcases List.mem_cons.1 hj with rfl | hj
    · exact Nat.lt_of_lt_of_le hp.1 (hbecomes.follows h.careful).states
    · exact hsound.housed.there j hj

theorem Walk.sound (h : Walk born start u ms p w) (hs : Sound born start u) :
    Sound (madeIn born ms) p w := by
  induction h with
  | refl => exact hs
  | move _ ha hp hrun ih =>
    rw [madeIn_cons]
    exact ih.move ha hp hrun
  | meanwhile _ d _ ih => exact ih.becomes d

/-! ## Loans

A loan is followed from one move to the next.  As long as it lasts, its state belongs to no other
interpreter, so a scope that ends elsewhere is not the one of this loan. -/

theorem Stems.mono (h : Stems born i) (ms : List Move) : Stems (madeIn born ms) i :=
  let ⟨b, hb, hs⟩ := h
  ⟨b, List.mem_append_right _ hb, hs⟩

/-- The state of an interpreter on loan is that of no other interpreter. -/
theorem Housed.not_unlent (h : Housed born w) (hb : Balanced born p 0 0 []) (hj : j ∈ p.loans) :
    ¬ Unlent p j.state := by
  have hstems := hb.stems j (List.mem_append_right _ hj)
  rintro (⟨i, hi, hstate⟩ | ⟨c, hc, i, hok, hstate⟩)
  · refine hb.idle_ne_loan hi hj (h.id_eq ?_ hstems hstate)
    exact hb.stems i (List.mem_append_left _ hi)
  · obtain ⟨hid, hi⟩ := hb.ended c hc i hok
    exact hb.creation_ne_loan hc hj (hid.symm.trans (h.id_eq hi hstems hstate))

/-- A move that can end the scope of an interpreter while it is on loan. -/
inductive Move.Touches (id : Nat) : Move → Prop where
  | giveBack (now : Nat) : Touches id (.giveBack id now)
  /-- The borrower ends the scope himself. -/
  | onLoan {use : Interpreter → Transition (Unit × Interpreter)} (h : ¬ KeepsScope use) :
      Touches id (.onLoan id use)

/-- The scope of an interpreter on loan is ended by nobody but its borrower. -/
theorem Sound.touches_of_mem (h : Sound born p w) (hj : j ∈ p.loans) {ended : List Nat}
    (hclosed : m.Closes p ended) (hmem : j.state ∈ ended) : m.Touches j.id := by
  have hstems := h.balanced.stems j (List.mem_append_right _ hj)
  -- an interpreter on loan with this state is this one
  have hsame : ∀ {id : Nat} {i : Interpreter}, p.loan? id = some i → j.state = i.state →
      id = j.id := fun hi hstate => by
    obtain ⟨hin, rfl⟩ := loan?_eq_some hi
    exact (h.housed.id_eq hstems (h.balanced.stems _ (List.mem_append_right _ hin)) hstate).symm
  cases m with
  | giveBack id now =>
    obtain ⟨i, hi, -, honly⟩ := hclosed
    exact hsame hi (honly _ hmem) ▸ .giveBack now
  | onLoan id use =>
    obtain ⟨i, hi, honly, hnil⟩ := hclosed
    refine hsame hi (honly _ hmem) ▸ .onLoan fun hkeeps => ?_
    rw [hnil hkeeps] at hmem
    exact List.not_mem_nil hmem
  | _ => exact absurd (hclosed _ hmem) (h.housed.not_unlent h.balanced hj)

/-- A return ends it. -/
theorem Sound.mem_of_giveBack (h : Sound born p w) (hj : j ∈ p.loans) {ended : List Nat} {now : Nat}
    (hclosed : (Move.giveBack j.id now).Closes p ended) : j.state ∈ ended := by
  obtain ⟨i, hi, hmem, -⟩ := hclosed
  obtain ⟨hin, hid⟩ := loan?_eq_some hi
  rwa [h.balanced.state_eq (h.balanced.stems j (List.mem_append_right _ hj))
    (h.balanced.stems i (List.mem_append_right _ hin)) hid.symm]

/-- **An interpreter on loan stays so until it is handed back**, and its scope is over then.  Until
then it is in its scope, unless the borrower himself ends it. -/
theorem Walk.loan (h : Walk born start u ms p w) (hs : Sound born start u)
    (hi : start.loan? id = some i) : ∃ ended, u.Becomes ended w
      ∧ ((∀ m ∈ ms, ¬ m.Touches id) → i.state ∉ ended)
      ∧ ((∀ now, .giveBack id now ∉ ms) → id ∈ p.loans.map (·.id))
      ∧ ((∃ now, .giveBack id now ∈ ms) → i.state ∈ ended) := by
  obtain ⟨hmem, rfl⟩ := loan?_eq_some hi
  have hstems := hs.balanced.stems i (List.mem_append_right _ hmem)
  induction h with
  | refl =>
    exact ⟨[], .refl, fun _ => List.not_mem_nil, fun _ => List.mem_map_of_mem hmem,
      fun ⟨_, h⟩ => absurd h List.not_mem_nil⟩
  | @move ms p q v w m h ha hp hrun ih =>
    obtain ⟨ended, hbecomes, hopen, hloan, hover⟩ := ih
    obtain ⟨ended', hbecomes', hclosed⟩ := Move.closes ha hp hrun
    have hsound := h.sound hs
    -- as long as it has not been handed back, it is still the same interpreter that is on loan
    have hlent : (∀ now, .giveBack i.id now ∉ ms) →
        ∃ j ∈ p.loans, j.id = i.id ∧ j.state = i.state := fun hnone => by
      obtain ⟨j, hj, hid⟩ := List.mem_map.1 (hloan hnone)
      exact ⟨j, hj, hid, hsound.balanced.state_eq
        (hsound.balanced.stems j (List.mem_append_right _ hj)) (hstems.mono ms) hid⟩
    refine ⟨_, hbecomes.trans hbecomes', fun hnone hin => ?_, fun hnone => ?_,
      fun ⟨now, hnow⟩ => ?_⟩
    · have hbefore : ∀ m ∈ ms, ¬ m.Touches i.id := fun n hn => hnone n (List.mem_cons_of_mem m hn)
      rcases List.mem_append.1 hin with hin | hin
      · obtain ⟨j, hj, hid, hstate⟩ := hlent fun now h => hbefore _ h (.giveBack now)
        rw [← hstate] at hin
        exact hnone m List.mem_cons_self (hid ▸ hsound.touches_of_mem hj hclosed hin)
      · exact hopen hbefore hin
    · exact Move.stays_on_loan ha hrun (hloan fun now h => hnone now (List.mem_cons_of_mem m h))
        fun now h => hnone now (h ▸ List.mem_cons_self)
    · by_cases hbefore : ∃ now, .giveBack i.id now ∈ ms
      · exact List.mem_append_right _ (hover hbefore)
      · obtain ⟨j, hj, hid, hstate⟩ := hlent fun now h => hbefore ⟨now, h⟩
        obtain rfl := (List.mem_cons.1 hnow).resolve_right fun h => hbefore ⟨now, h⟩
        rw [← hid] at hclosed
        exact List.mem_append_left _ (hstate ▸ hsound.mem_of_giveBack hj hclosed)
  | @meanwhile ms p v w ended' h d apart ih =>
    obtain ⟨ended, hbecomes, hopen, hloan, hover⟩ := ih
    refine ⟨_, hbecomes.trans d, fun hnone hin => ?_, hloan, fun hsome =>
      List.mem_append_right _ (hover hsome)⟩
    rcases List.mem_append.1 hin with hin | hin
    · obtain ⟨b, hb, -, hstate⟩ := hstems.mono ms
      exact apart _ hin (List.mem_map.2 ⟨b, hb, hstate⟩)
    · exact hopen hnone hin

/-- The function, handed out in a scope. -/
def held (epoch : Nat) : GuestFunction := ⟨0, 0, {}, epoch⟩

end Pool
end ScriptPool
