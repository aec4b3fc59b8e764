import MusicLibrary.Change.Event

/-! A channel for change events that never holds up the sender: what finds no room is dropped, and
counted. -/

namespace MusicLibrary

/-- Events on their way, the oldest one first. -/
structure Channel where
  capacity : Nat
  waiting : List ChangeEvent := []
  /-- How many events found no room, or nobody to receive them. -/
  dropped : Nat := 0
  isOpen : Bool := true
  deriving DecidableEq

namespace Channel

def emit (channel : Channel) (event : ChangeEvent) : Channel :=
  if channel.isOpen ∧ channel.waiting.length < channel.capacity then
    { channel with waiting := channel.waiting ++ [event] }
  else { channel with dropped := channel.dropped + 1 }

def receive (channel : Channel) : Option ChangeEvent × Channel :=
  match channel.waiting with
  | [] => (none, channel)
  | event :: rest => (some event, { channel with waiting := rest })

def close (channel : Channel) : Channel := { channel with waiting := [], isOpen := false }

end Channel

end MusicLibrary
