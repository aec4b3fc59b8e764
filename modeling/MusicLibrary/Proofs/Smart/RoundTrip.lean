import MusicLibrary.Proofs.Smart.CriteriaRecord
import MusicLibrary.Proofs.Smart.InfoRecord
import MusicLibrary.Proofs.Text.Base64
import MusicLibrary.Smart.Stored

/-! Whole smart playlists read back, from the two texts of a library file and from the stored
bytes. -/

namespace MusicLibrary.Smart

open Text (Spaced)

variable {smart : Smart}

theorem Representable.read_criteria (h : smart.Representable) :
    decodeCriteria (encodeCriteria smart.ruleset) = .ok smart.ruleset :=
  decodeCriteria_encodeCriteria (fun rule mem => (h.rules rule mem).returns) h.count

theorem Representable.read_info (h : smart.Representable) :
    Info.decode (info smart).encode = .ok (info smart) :=
  Info.decode_encode fun limit same => (h.limit limit same).isWhole

theorem Representable.read_records (h : smart.Representable) :
    decodeRecords (info smart).encode (encodeCriteria smart.ruleset) = .ok smart := by
  rw [decodeRecords, h.read_info, h.read_criteria]
  rfl

theorem decodeBase64_spaced {bytes : List UInt8} {text : String}
    (h : Spaced (Text.Base64.encode bytes) text.toList) : decodeBase64 text = .ok bytes := by
  rw [decodeBase64, Text.Base64.decode_filter_spaced h]

theorem Representable.read_texts (h : smart.Representable) {info criteria : String}
    (hi : Spaced (encodeTexts smart).1.toList info.toList)
    (hc : Spaced (encodeTexts smart).2.toList criteria.toList) :
    decodeTexts info criteria = .ok smart := by
  rw [encodeTexts, String.toList_ofList] at hi hc
  rw [decodeTexts, decodeBase64_spaced hi, decodeBase64_spaced hc]
  exact h.read_records

/-! The stored form. A length that does not fit thirty-two bits is cut off, and so is what it
measures. -/

theorem unframe_framed (bytes rest : List UInt8) (part : Part) :
    unframe (framed bytes ++ rest) part =
      .ok ((bytes ++ rest).take (fit32 bytes.length),
        (bytes ++ rest).drop (fit32 bytes.length)) := by
  have small : fit32 bytes.length < Nat.pow 256 4 := fit32_lt _
  have length : Bytes.fieldAt (framed bytes ++ rest) 0 4 = fit32 bytes.length := by
    rw [framed, List.append_assoc]
    exact Bytes.fieldAt_bigEndian_append 4 small (bytes ++ rest)
  have body : (framed bytes ++ rest).drop 4 = bytes ++ rest := by
    rw [framed, List.append_assoc]
    exact List.drop_left' (Bytes.length_bigEndian 4 _)
  have front : require (framed bytes ++ rest) 4 part = .ok () := by
    rw [require_eq_ok_iff, List.length_append, length_framed]
    omega
  have whole : require (framed bytes ++ rest) (4 + fit32 bytes.length) part = .ok () := by
    have cut := fit32_le bytes.length
    rw [require_eq_ok_iff, List.length_append, length_framed]
    omega
  have behind : (framed bytes ++ rest).drop (4 + fit32 bytes.length) =
      (bytes ++ rest).drop (fit32 bytes.length) := by
    rw [← List.drop_drop, body]
  rw [unframe, front]
  simp only [bind, Except.bind, pure, Except.pure, length, whole, body, behind]

theorem ofBytes_toBytes (smart : Smart) :
    ofBytes smart.toBytes = decodeRecords (info smart).encode
      ((encodeCriteria smart.ruleset).take (fit32 (encodeCriteria smart.ruleset).length)) := by
  have width : fit32 (info smart).encode.length = (info smart).encode.length := by
    rw [Info.length_encode]
    rfl
  have last := unframe_framed (encodeCriteria smart.ruleset) [] .criteriaLength
  rw [List.append_nil, List.append_nil] at last
  rw [ofBytes, toBytes, unframe_framed, width, List.take_left, List.drop_left]
  simp only [bind, Except.bind, last]

/-- Rules without unknown ones come back from the stored bytes in the same number only if all bytes
are there. -/
theorem ofBytes_toBytes_iff {set : RuleSet}
    (limit : ∀ limit, smart.limit = some limit → limit.IsWhole)
    (known : ∀ rule ∈ set.rules, rule.encode? ≠ none)
    (count : set.rules.length = (encodeRules smart.ruleset.rules).length)
    (whole : (encodeCriteria smart.ruleset).length < 4294967296 →
      decodeCriteria (encodeCriteria smart.ruleset) = .ok set) :
    ofBytes smart.toBytes = .ok { smart with ruleset := set } ↔
      (encodeCriteria smart.ruleset).length < 4294967296 := by
  rw [ofBytes_toBytes, decodeRecords, Info.decode_encode limit]
  constructor
  · intro read
    cases cut : decodeCriteria ((encodeCriteria smart.ruleset).take
        (fit32 (encodeCriteria smart.ruleset).length)) with
    | error fault =>
      rw [cut] at read
      cases read
    | ok ruleset =>
      rw [cut] at read
      have same : ruleset = set := congrArg Smart.ruleset (Except.ok.inj read)
      rw [same] at cut
      have header : headerWidth ≤ fit32 (encodeCriteria smart.ruleset).length := by
        rw [encodeCriteria, length_encodeRuleSet]
        exact Nat.le_min.2 ⟨Nat.le_add_right _ _, by decide⟩
      exact Nat.lt_of_le_of_lt (le_of_decodeCriteria_take known count header (fit32_lt _) cut)
        (fit32_lt _)
  · intro short
    rw [fit32_eq short, List.take_length, whole short]
    rfl

theorem Representable.ofBytes_toBytes_iff (h : smart.Representable) :
    ofBytes smart.toBytes = .ok smart ↔ (encodeCriteria smart.ruleset).length < 4294967296 := by
  have returns : ∀ rule ∈ smart.ruleset.rules, rule.Returns :=
    fun rule mem => (h.rules rule mem).returns
  refine Smart.ofBytes_toBytes_iff (fun limit same => (h.limit limit same).isWhole)
    (fun rule mem => ?_) (length_encodeRules returns).symm fun _ => h.read_criteria
  obtain ⟨head, nested, payload, write, _⟩ := returns rule mem
  rw [write]
  exact Option.some_ne_none _

/-- A smart playlist that the records can hold comes back from its two texts, whatever blanks are
put into them, and from its stored bytes as long as their length fits where it is stored. -/
theorem round_trip (h : smart.Representable) :
    decodeTexts (encodeTexts smart).1 (encodeTexts smart).2 = .ok smart ∧
      (∀ info criteria : String, Spaced (encodeTexts smart).1.toList info.toList →
        Spaced (encodeTexts smart).2.toList criteria.toList →
          decodeTexts info criteria = .ok smart) ∧
      (ofBytes smart.toBytes = .ok smart ↔ (encodeCriteria smart.ruleset).length < 4294967296) := by
  refine ⟨?_, ?_, h.ofBytes_toBytes_iff⟩
  · exact h.read_texts (.refl _) (.refl _)
  · intro info criteria hi hc
    exact h.read_texts hi hc

/-- Two gigabytes of loved tracks of an artist, from a decade or added or played of late. -/
def lovedTracks : Smart where
  ruleset :=
    ⟨.and, [.text ⟨.artist, .strPos, .contains, ["Sigur Rós 𝄞"]⟩,
      .group .or [.integer ⟨.year, .pos, .between, [1990, 1999]⟩,
        .date ⟨.dateAdded, .neg, .within, [⟨-1209600000⟩]⟩,
        .date ⟨.playDate, .pos, .greaterThan, [⟨978307200000⟩]⟩, .group .and []],
      .flag ⟨.loved, .pos, .is, some true⟩]⟩
  limit := some ⟨.size 2147483648, .other 0x30, true⟩
  liveUpdating := true

theorem representable_lovedTracks : lovedTracks.Representable where
  rules := by
    intro rule mem
    simp only [lovedTracks, List.mem_cons, List.not_mem_nil, or_false] at mem
    rcases mem with rfl | rfl | rfl
    · exact .text ⟨by decide, nofun, nofun⟩ (.inr ⟨_, rfl, by decide, by decide⟩)
    · refine .group ?_ (by decide) (by decide +kernel)
      intro rule mem
      simp only [List.mem_cons, List.not_mem_nil, or_false] at mem
      rcases mem with rfl | rfl | rfl | rfl
      · refine .integer ⟨by decide, nofun, nofun⟩ (by decide) ?_
        intro year mem
        simp only [List.mem_cons, List.not_mem_nil, or_false] at mem
        rcases mem with rfl | rfl <;> decide
      · exact .offset ⟨by decide, nofun, nofun⟩ rfl (.inr ⟨_, rfl, by decide⟩)
      · exact .dates ⟨by decide, nofun, nofun⟩ (by decide) (by decide) (by decide) (by decide)
      · exact .group nofun (by decide) (by decide +kernel)
    · exact .flag ⟨by decide, nofun, nofun⟩
  count := by decide
  limit := by
    intro limit same
    cases same
    refine ⟨⟨by decide, by decide⟩, ?_⟩
    rintro code ⟨⟩
    decide

theorem round_trip_lovedTracks :
    lovedTracks.Representable ∧
      decodeTexts (encodeTexts lovedTracks).1 (encodeTexts lovedTracks).2 = .ok lovedTracks ∧
      ofBytes lovedTracks.toBytes = .ok lovedTracks :=
  have read := round_trip representable_lovedTracks
  ⟨representable_lovedTracks, read.1, read.2.2.2 (by decide +kernel)⟩

end MusicLibrary.Smart
