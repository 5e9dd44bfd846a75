import Mathlib

namespace YdbSdk.Data

/-! # An ordered relay

Items are pushed into a relay, are held until they are ready, are staged for whoever
takes them, and are given away.  Items move only in one direction and never overtake
each other; a relay may lose what it has not given away.
-/

structure Relay (α : Type) where
  pushed : List α
  given : List α
  staged : List α
  held : List α

namespace Relay

/-- What was pushed and not lost, from the oldest item to the newest. -/
def line (relay : Relay α) : List α := relay.given ++ (relay.staged ++ relay.held)

/-- Nothing is invented, repeated or reordered.  A relay that was never cut has lost
at most its tail, and an open one has lost nothing. -/
structure Faithful (intact unclosed : Prop) (relay : Relay α) : Prop where
  ordered : relay.line.Sublist relay.pushed
  contiguous : intact → relay.line <+: relay.pushed
  complete : intact → unclosed → relay.line = relay.pushed

variable {intact unclosed : Prop} {before after : Relay α}

variable (faithful : before.Faithful intact unclosed)
include faithful

theorem Faithful.move
    (sameLine : after.line = before.line) (samePushed : after.pushed = before.pushed) :
    after.Faithful intact unclosed := by
  refine ⟨?_, ?_, ?_⟩ <;> rw [sameLine, samePushed]
  · exact faithful.ordered
  · exact faithful.contiguous
  · exact faithful.complete

theorem Faithful.push (items : List α)
    (isOpen : unclosed) (longerLine : after.line = before.line ++ items)
    (longerPushed : after.pushed = before.pushed ++ items) : after.Faithful intact unclosed := by
  refine ⟨?_, fun whole => ?_, fun whole _ => ?_⟩ <;> rw [longerLine, longerPushed]
  · exact faithful.ordered.append (.refl items)
  · exact ⟨[], by rw [faithful.complete whole isOpen, List.append_nil]⟩
  · rw [faithful.complete whole isOpen]

theorem Faithful.cut
    (shorter : after.line.Sublist before.line) (samePushed : after.pushed = before.pushed) :
    after.Faithful False unclosed :=
  ⟨samePushed ▸ shorter.trans faithful.ordered, fun impossible => impossible.elim,
    fun impossible => impossible.elim⟩

theorem Faithful.close
    (shorter : after.line <+: before.line) (samePushed : after.pushed = before.pushed) :
    after.Faithful intact False :=
  ⟨samePushed ▸ shorter.sublist.trans faithful.ordered,
    fun whole => samePushed ▸ shorter.trans (faithful.contiguous whole),
    fun _ impossible => impossible.elim⟩

theorem Faithful.mono
    (whole : lessIntact → intact) (isOpen : lessOpen → unclosed) :
    before.Faithful lessIntact lessOpen :=
  ⟨faithful.ordered, fun less => faithful.contiguous (whole less),
    fun less stillOpen => faithful.complete (whole less) (isOpen stillOpen)⟩

end Relay

end YdbSdk.Data
