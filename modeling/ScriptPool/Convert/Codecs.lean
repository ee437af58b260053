import ScriptPool.Guest.Numeral
import ScriptPool.World

/-!
# Stock codecs

A codec says how the custom values of one tag cross.  These are four simple ones: pairs of integers
as tables with a marked metatable, a fixed text for every value, one that claims every table, and
one that refuses everything.
-/

set_option autoImplicit false

namespace ScriptPool
namespace Codec

/-- The metatable field by which a table says which codec built it. -/
def tagField : String := "__custom"

/-- A pair as a table with the fields `x` and `y`, under a fresh metatable that names the tag. -/
def encodePair (tag : String) (custom : Custom) (g : GuestState) :
    Except ConvertError GuestValue × GuestState :=
  match custom.payload with
  | .pair x y =>
      let (marker, g) := g.newTable { entries := [(.ofString tagField, .ofString tag)] }
      let (id, g) := g.newTable
        { GuestTable.ofFields [("x", .integer x), ("y", .integer y)] with metatable := some marker }
      (.ok (.table id), g)
  | _ => (.error (.unsupported (tag ++ " payload")), g)

theorem leadsTo_encodePair (tag : String) (custom : Custom) (g : GuestState) :
    g.LeadsTo (encodePair tag custom g).2 := by
  rw [encodePair]
  split
  · exact (g.leadsTo_newTable _).trans (GuestState.leadsTo_newTable _ _)
  · exact .refl g

/-- A failure of the guest as a failure of the conversion. -/
def guestFailure {α : Type} (r : Except GuestFault α) : Except ConvertError α :=
  r.mapError fun f => .guest f.message

/-- Pairs of integers. -/
def pair (tag : String) : Codec where
  encode := encodePair tag
  leadsTo := leadsTo_encodePair tag
  decode g
    | .table id =>
        let t := g.table id
        match t.metatable with
        | none => .ok none
        | some m => do
            let named ← guestFailure ((g.table m).field tagField).toHostString?
            if named = some tag then
              let x ← guestFailure (t.field "x").toHostInteger
              let y ← guestFailure (t.field "y").toHostInteger
              .ok (some (.pair x y))
            else .ok none
    | _ => .ok none

/-- Every value becomes the text of the tag; foreign userdata is claimed. -/
def text (tag : String) : Codec where
  encode _ g := (.ok (.ofString tag), g)
  leadsTo _ := .refl
  decode _
    | .object (.userdata _) => .ok (some .token)
    | _ => .ok none

/-- Pairs of integers going in; coming back every table is claimed as the zero pair. -/
def claimTables (tag : String) : Codec where
  encode := encodePair tag
  leadsTo := leadsTo_encodePair tag
  decode _
    | .table _ => .ok (some (.pair 0 0))
    | _ => .ok none

/-- Refuses everything in both directions. -/
def refuse (tag : String) : Codec where
  encode _ g := (.error (.unsupported (tag ++ " refuses")), g)
  leadsTo _ := .refl
  decode _ _ := .error (.unsupported (tag ++ " refuses"))

end Codec
end ScriptPool
