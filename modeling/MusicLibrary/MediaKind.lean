import MusicLibrary.Json.Fields
import MusicLibrary.Text.Numeral

/-! Media kinds: a set of flags in thirty-two bits, with names for the kinds in common use. -/

namespace MusicLibrary

structure MediaKind where
  bits : UInt32
  deriving DecidableEq, Inhabited

namespace MediaKind

def music : MediaKind := ⟨0x1⟩
def movie : MediaKind := ⟨0x2⟩
def podcast : MediaKind := ⟨0x4⟩
def audiobook : MediaKind := ⟨0x8⟩
def musicVideo : MediaKind := ⟨0x20⟩
def tvShow : MediaKind := ⟨0x40⟩
def homeVideo : MediaKind := ⟨0x400⟩
def voiceMemo : MediaKind := ⟨0x100000⟩
def book : MediaKind := ⟨0xC00000⟩

def named : List (MediaKind × String) :=
  [(music, "music"), (movie, "movie"), (podcast, "podcast"), (audiobook, "audiobook"),
   (musicVideo, "music_video"), (tvShow, "tv_show"), (homeVideo, "home_video"),
   (voiceMemo, "voice_memo"), (book, "book")]

def name? (kind : MediaKind) : Option String := named.lookup kind

def intersects (a b : MediaKind) : Bool := a.bits &&& b.bits != 0

/-- The kind that the flags of a record ask for; the first flag that is set decides. -/
def ofFlags (movie podcast tvShow musicVideo : Bool) : MediaKind :=
  if movie then .movie
  else if podcast then .podcast
  else if tvShow then .tvShow
  else if musicVideo then .musicVideo
  else .music

def display (kind : MediaKind) : String :=
  kind.name?.getD (String.ofList ('0' :: 'x' :: Text.upperHex kind.bits.toNat))

/-- The kind of a name, of hexadecimal digits behind a 0x, or of a decimal number. -/
def parse? (s : String) : Option MediaKind :=
  match named.find? fun entry => entry.2 == s with
  | some entry => some entry.1
  | none =>
    let hex := match s.toList with
      | '0' :: 'x' :: digits => (Text.readUnsigned 16 digits).filter (· < UInt32.size)
      | _ => none
    (hex <|> (Text.readUnsigned 10 s.toList).filter (· < UInt32.size)).map fun n => ⟨UInt32.ofNat n⟩

def toJson (kind : MediaKind) : Json := .ofNat kind.bits.toNat

def ofJson? (j : Json) : Option MediaKind := j.uint32?.map MediaKind.mk

example : (named.map (·.1)).Nodup ∧ (named.map (·.2)).Nodup := by decide

end MediaKind

end MusicLibrary
