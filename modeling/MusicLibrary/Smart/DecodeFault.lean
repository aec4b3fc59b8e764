import MusicLibrary.Text.Numeral

/-! What can be wrong with the binary form of a smart playlist. -/

namespace MusicLibrary

/-- A step of `Except` that succeeds splits in two. -/
theorem bind_eq_ok {x : Except ε α} {f : α → Except ε β} {b : β} (h : (x >>= f) = .ok b) :
    ∃ a, x = .ok a ∧ f a = .ok b := by
  cases x with
  | error fault => cases h
  | ok a => exact ⟨a, rfl, h⟩

namespace Smart

/-- A part of the binary form that has a least length. -/
inductive Part where
  | infoRecord | ruleSetHeader | integerPayload | playlistPayload | infoLength | criteriaLength
  deriving DecidableEq

def Part.label : Part → String
  | .infoRecord => "info record"
  | .ruleSetHeader => "ruleset header"
  | .integerPayload => "integer payload"
  | .playlistPayload => "playlist payload"
  | .infoLength => "smart info length"
  | .criteriaLength => "smart criteria length"

inductive DecodeFault where
  | base64
  | truncated (part : Part) (need available : Nat)
  | unknownFieldType (code : UInt32)
  deriving DecidableEq

def DecodeFault.message : DecodeFault → String
  | .base64 => "invalid base64"
  | .truncated part need available =>
    "truncated " ++ part.label ++ ": need " ++ toString need ++ " bytes, have "
      ++ toString available
  | .unknownFieldType code =>
    "unknown field type for field 0x" ++ String.ofList (Text.paddedHex 2 code.toNat)

def require (bytes : List UInt8) (need : Nat) (part : Part) : Except DecodeFault Unit :=
  if bytes.length < need then .error (.truncated part need bytes.length) else .ok ()

theorem require_eq_ok_iff {bytes : List UInt8} {need : Nat} {part : Part} :
    require bytes need part = .ok () ↔ need ≤ bytes.length := by
  unfold require
  split <;> simp <;> omega

end Smart

end MusicLibrary
