import ScriptPool.Convert.ToValue
import ScriptPool.Convert.FromValue

/-!
# Running conversions

A conversion is run in a world.  `Conversion.on` gives its result together with the world
afterwards, and the lemmas here take that apart step by step: they are the equations by which all
proofs about the two directions proceed.
-/

set_option autoImplicit false

namespace ScriptPool
namespace Conversion

variable {α β : Type}

/-- What a conversion makes of a world: its result, and the world afterwards. -/
def on (t : Conversion α) (w : World) : Except ConvertError α × World := t.run.run w

@[simp] theorem on_pure (a : α) (w : World) : (pure a : Conversion α).on w = (.ok a, w) := rfl

@[simp] theorem on_throw (e : ConvertError) (w : World) :
    (throw e : Conversion α).on w = (.error e, w) := rfl

/-- A step that succeeds is followed by the rest. -/
theorem on_bind_ok {t : Conversion α} {f : α → Conversion β} {w w' : World} {a : α}
    (h : t.on w = (.ok a, w')) : (t >>= f).on w = (f a).on w' := by
  have hb : (t >>= f).on w = ((ExceptT.bindCont f (t.on w).1).run (t.on w).2) := rfl
  rw [hb, h]
  rfl

/-- A step that fails is the last one. -/
theorem on_bind_error {t : Conversion α} {f : α → Conversion β} {w w' : World} {e : ConvertError}
    (h : t.on w = (.error e, w')) : (t >>= f).on w = (.error e, w') := by
  have hb : (t >>= f).on w = ((ExceptT.bindCont f (t.on w).1).run (t.on w).2) := rfl
  rw [hb, h]
  rfl

@[simp] theorem on_get_bind (f : World → Conversion β) (w : World) :
    ((get : Conversion World) >>= f).on w = (f w).on w := rfl

/-- What succeeds has succeeded step by step. -/
theorem exists_of_on_bind {t : Conversion α} {f : α → Conversion β} {w w' : World} {b : β}
    (h : (t >>= f).on w = (.ok b, w')) :
    ∃ a v, t.on w = (.ok a, v) ∧ (f a).on v = (.ok b, w') := by
  rcases ht : t.on w with ⟨e | a, v⟩
  · rw [on_bind_error ht] at h
    cases h
  · rw [on_bind_ok ht] at h
    exact ⟨a, v, rfl, h⟩

/-- A change of one guest state is a change of the world. -/
@[simp] theorem on_onState (s : Nat) (f : GuestState → α × GuestState) (w : World) :
    (onState s f).on w = (.ok (f (w.state s)).1, w.setState s (f (w.state s)).2) := rfl

/-- A plain result in place of a conversion. -/
theorem on_liftM_bind (r : Except ConvertError α) (f : α → Conversion β) (w : World) :
    on (liftM r >>= f) w = match r with
      | .ok a => (f a).on w
      | .error e => (.error e, w) := by
  cases r <;> rfl

end Conversion
end ScriptPool
