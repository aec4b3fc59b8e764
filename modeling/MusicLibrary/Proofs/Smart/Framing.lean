import MusicLibrary.Proofs.Smart.RoundTrip

/-! How a criteria record falls into blocks. Reading fails on the header only; behind it every block
is read alone, whatever the other ones hold, and a record that is cut off loses its last rules and
no others. -/

namespace MusicLibrary

namespace Smart

/-! Headers. -/

theorem checkHeader_eq_ok_iff {bytes : List UInt8} :
    checkHeader bytes = .ok () ↔
      leastHeaderWidth ≤ bytes.length ∧ (readCount bytes = 0 ∨ headerWidth ≤ bytes.length) := by
  rw [checkHeader]
  by_cases least : leastHeaderWidth ≤ bytes.length
  · rw [require_eq_ok_iff.2 least]
    by_cases none : readCount bytes = 0
    · simp [none, least, bind, Except.bind, pure, Except.pure]
    · simp [none, least, require_eq_ok_iff, bind, Except.bind]
  · have fault : require bytes leastHeaderWidth .ruleSetHeader =
        .error (.truncated .ruleSetHeader leastHeaderWidth bytes.length) :=
      if_pos (Nat.lt_of_not_le least)
    simp [fault, least, bind, Except.bind]

theorem decodeCriteria_of_checkHeader {bytes : List UInt8} (h : checkHeader bytes = .ok ()) :
    decodeCriteria bytes =
      .ok ⟨readConjunction bytes, (readBlocks bytes).map (Block.rule decodeCriteria)⟩ := by
  rw [decodeCriteria_eq, h]
  rfl

theorem exists_fault_iff (bytes : List UInt8) :
    (∃ fault, decodeCriteria bytes = .error fault) ↔
      bytes.length < leastHeaderWidth ∨ readCount bytes ≠ 0 ∧ bytes.length < headerWidth := by
  have accepted := @checkHeader_eq_ok_iff bytes
  cases header : checkHeader bytes with
  | error fault =>
    rw [header] at accepted
    have refused : decodeCriteria bytes = .error fault := by
      rw [decodeCriteria_eq, header]
      rfl
    refine iff_of_true ⟨fault, refused⟩ ?_
    refine Decidable.byContradiction fun long => ?_
    exact nomatch accepted.2 (by omega)
  | ok _ =>
    have long := accepted.1 header
    rw [decodeCriteria_of_checkHeader header]
    refine iff_of_false (by rintro ⟨fault, ⟨⟩⟩) ?_
    omega

/-! Blocks. -/

/-- A head, and a payload of the length that the head gives. -/
def IsBlock (record : List UInt8) : Prop := record.length = headWidth + payloadLength record

instance (record : List UInt8) : Decidable (IsBlock record) :=
  inferInstanceAs (Decidable (_ = _))

/-- A block that is read alone. -/
def Block.ofBytes (record : List UInt8) : Block :=
  ⟨readHead record, some (record.drop headWidth)⟩

/-- Bytes behind a head do not matter to it. -/
theorem readHead_take {k : Nat} (h : headWidth ≤ k) (bytes : List UInt8) :
    readHead (bytes.take k) = readHead bytes := by
  simp only [headWidth] at h
  rw [readHead, readHead, Bytes.fieldAt_take (by omega), Bytes.fieldAt_take (by omega),
    Bytes.fieldAt_take (by omega)]

theorem payloadLength_take {k : Nat} (h : headWidth ≤ k) (bytes : List UInt8) :
    payloadLength (bytes.take k) = payloadLength bytes :=
  Bytes.fieldAt_take (by simpa [headWidth] using h) bytes

theorem blocks_append {record : List UInt8} (block : IsBlock record) (count : Nat)
    (rest : List UInt8) :
    blocks (count + 1) (record ++ rest) = .ofBytes record :: blocks count rest := by
  have front : (record ++ rest).take record.length = record := List.take_left
  have wide : headWidth ≤ record.length := by
    rw [block]
    exact Nat.le_add_right _ _
  have head : readHead (record ++ rest) = readHead record := by
    rw [← readHead_take wide, front]
  have length : payloadLength (record ++ rest) = payloadLength record := by
    rw [← payloadLength_take wide, front]
  have payload : (record.drop headWidth).length = payloadLength record := by
    rw [List.length_drop, block, Nat.add_sub_cancel_left]
  simp only [blocks, head, length, List.drop_append_of_le_length wide]
  rw [if_neg, if_neg, List.take_left' payload, List.drop_left' payload, Block.ofBytes]
  · rw [List.length_append, payload]
    omega
  · rw [List.length_append]
    omega

theorem blocks_flatten {records : List (List UInt8)} (each : ∀ record ∈ records, IsBlock record)
    (rest : List UInt8) :
    blocks records.length (records.flatten ++ rest) = records.map .ofBytes := by
  induction records with
  | nil => rfl
  | cons record others ih =>
    have tail := ih fun next mem => each next (List.mem_cons_of_mem record mem)
    rw [List.flatten_cons, List.append_assoc, List.length_cons,
      blocks_append (each record List.mem_cons_self), tail, List.map_cons]

/-- The rule that a block is read as. -/
def ruleOfBlock (record : List UInt8) : Rule := Block.rule decodeCriteria (.ofBytes record)

/-- Behind a header with their count, blocks are read one by one. -/
theorem decodeCriteria_header {header : List UInt8} (width : header.length = headerWidth)
    {records : List (List UInt8)} (count : readCount header = records.length)
    (each : ∀ record ∈ records, IsBlock record) (rest : List UInt8) :
    decodeCriteria (header ++ (records.flatten ++ rest)) =
      .ok ⟨readConjunction header, records.map ruleOfBlock⟩ := by
  have front : (header ++ (records.flatten ++ rest)).take headerWidth = header :=
    List.take_left' width
  have behind : (header ++ (records.flatten ++ rest)).drop headerWidth = records.flatten ++ rest :=
    List.drop_left' width
  have number : readCount (header ++ (records.flatten ++ rest)) = records.length := by
    rw [← count, readCount, ← Bytes.fieldAt_take (show 8 + 4 ≤ headerWidth by decide), front]
    rfl
  have conjunction : readConjunction (header ++ (records.flatten ++ rest)) =
      readConjunction header := by
    rw [readConjunction, ← Bytes.fieldAt_take (show 12 + 4 ≤ headerWidth by decide), front]
    rfl
  have long : headerWidth ≤ (header ++ (records.flatten ++ rest)).length := by
    rw [List.length_append, width]
    exact Nat.le_add_right _ _
  rw [decodeCriteria_of_checkHeader (checkHeader_of_long long), conjunction, readBlocks, number,
    behind, blocks_flatten each, List.map_map]
  rfl

/-! Heads of rules. -/

/-- The rule tells the head that it stands behind; of rules that hold rules the head is not kept,
but its field is. -/
def Rule.StandsBehind (head : Head) : Rule → Prop
  | .group .. => head.field = .ruleset
  | .text c => c.bare = head
  | .integer c => c.bare = head
  | .flag c => c.bare = head
  | .date c => c.bare = head
  | .mediaKind c => c.bare = head
  | .playlist c => c.bare = head
  | .unknown c => c = head

theorem standsBehind_of_decodeLeaf {head : Head} {payload : List UInt8} {rule : Rule}
    (h : decodeLeaf head payload = .ok rule) : rule.StandsBehind head := by
  cases kind : head.field.valueKind <;> simp only [decodeLeaf, kind] at h
  case rules | sealed | text =>
    cases h
    rfl
  case unknown => cases h
  case integer | love | date | mediaKind =>
    obtain rfl | ⟨slots, rfl⟩ := of_decode_payload h <;> rfl
  case flag =>
    split at h
    · cases h
      rfl
    · split at h
      · cases h
        rfl
      · obtain ⟨slots, rfl⟩ := of_decode_slots h
        rfl
  case playlist =>
    split at h
    · cases h
      rfl
    · cases long : require payload 8 .playlistPayload <;> rw [long] at h <;> cases h
      rfl

theorem ne_group_of_decodeLeaf {head : Head} {payload : List UInt8} {rule : Rule}
    (h : decodeLeaf head payload = .ok rule) (conjunction : Conjunction) (rules : List Rule) :
    rule ≠ .group conjunction rules := by
  rintro rfl
  have field : head.field = .ruleset := standsBehind_of_decodeLeaf h
  simp only [decodeLeaf, field, Field.valueKind] at h
  cases h

theorem Block.standsBehind_rule (nested : List UInt8 → Except DecodeFault RuleSet)
    (block : Block) : (block.rule nested).StandsBehind block.head := by
  obtain ⟨head, payload⟩ := block
  cases payload with
  | none => rfl
  | some payload =>
    simp only [Block.rule]
    split
    · rename_i rules
      split
      · cases field : head.field <;> rw [field] at rules <;> first | exact field | cases rules
      · rfl
    · split
      · rename_i read
        exact standsBehind_of_decodeLeaf read
      · rfl

/-! Records that are cut off. -/

/-- Of bytes that end early the first blocks are left, perhaps with the head of the next one. -/
theorem blocks_take (count k : Nat) (bytes : List UInt8) :
    ∃ kept, blocks count (bytes.take k) = (blocks count bytes).take kept ∨
      ∃ next, (blocks count bytes)[kept]? = some next ∧
        blocks count (bytes.take k) = (blocks count bytes).take kept ++ [⟨next.head, none⟩] := by
  induction count generalizing k bytes with
  | zero => exact ⟨0, .inl rfl⟩
  | succ count ih =>
    by_cases cut : (bytes.take k).length < headWidth
    · exact ⟨0, .inl (by rw [blocks, if_pos cut]; rfl)⟩
    obtain ⟨wide, long⟩ : headWidth ≤ k ∧ headWidth ≤ bytes.length := by
      rw [List.length_take] at cut
      omega
    have head := readHead_take wide bytes
    have length := payloadLength_take wide bytes
    have behind : (bytes.take k).drop headWidth = (bytes.drop headWidth).take (k - headWidth) :=
      List.drop_take
    simp only [blocks, if_neg cut, if_neg (Nat.not_lt.2 long), head, length, behind]
    by_cases torn : ((bytes.drop headWidth).take (k - headWidth)).length < payloadLength bytes
    · refine ⟨0, .inr ?_⟩
      rw [if_pos torn]
      split <;> exact ⟨_, rfl, rfl⟩
    obtain ⟨room, whole⟩ : payloadLength bytes ≤ k - headWidth ∧
        payloadLength bytes ≤ (bytes.drop headWidth).length := by
      rw [List.length_take] at torn
      omega
    have payload : ((bytes.drop headWidth).take (k - headWidth)).take (payloadLength bytes) =
        (bytes.drop headWidth).take (payloadLength bytes) := by
      rw [List.take_take, Nat.min_eq_left room]
    rw [if_neg torn, if_neg (Nat.not_lt.2 whole), payload, List.drop_take]
    obtain ⟨kept, rest | ⟨next, found, rest⟩⟩ := ih (k - headWidth - payloadLength bytes)
      ((bytes.drop headWidth).drop (payloadLength bytes))
    · exact ⟨kept + 1, .inl (by rw [rest]; rfl)⟩
    · exact ⟨kept + 1, .inr ⟨next, found, by rw [rest]; rfl⟩⟩

theorem decodeCriteria_of_long {bytes : List UInt8} (long : headerWidth ≤ bytes.length) :
    decodeCriteria bytes =
      .ok ⟨readConjunction bytes, (readBlocks bytes).map (Block.rule decodeCriteria)⟩ :=
  decodeCriteria_of_checkHeader (checkHeader_of_long long)

/-- What is left of the rules of a record that is cut off: the first ones, perhaps with an unknown
rule behind them, which has the head of the block that comes next. -/
def IsCutOff (record : List UInt8) (whole cut : List Rule) : Prop :=
  cut <+: whole ∨ ∃ kept next rest block, whole = kept ++ next :: rest ∧
    (readBlocks record)[kept.length]? = some block ∧ next.StandsBehind block.head ∧
    cut = kept ++ [.unknown block.head]

theorem isCutOff_take {bytes : List UInt8} {k : Nat} (long : headerWidth ≤ k) :
    IsCutOff bytes ((readBlocks bytes).map (Block.rule decodeCriteria))
      ((readBlocks (bytes.take k)).map (Block.rule decodeCriteria)) := by
  have count : readCount (bytes.take k) = readCount bytes :=
    Bytes.fieldAt_take (Nat.le_trans (by decide) long) bytes
  have behind : (bytes.take k).drop headerWidth = (bytes.drop headerWidth).take (k - headerWidth) :=
    List.drop_take
  have blocks_eq : readBlocks (bytes.take k) =
      blocks (readCount bytes) ((bytes.drop headerWidth).take (k - headerWidth)) := by
    rw [readBlocks, count, behind]
  obtain ⟨kept, front | ⟨next, found, front⟩⟩ := blocks_take (readCount bytes) (k - headerWidth)
    (bytes.drop headerWidth)
  · refine .inl ?_
    rw [blocks_eq, front]
    exact (List.take_prefix _ _).map _
  · change (readBlocks bytes)[kept]? = some next at found
    obtain ⟨inside, item⟩ := List.getElem?_eq_some_iff.1 found
    have split : readBlocks bytes =
        (readBlocks bytes).take kept ++ next :: (readBlocks bytes).drop (kept + 1) := by
      rw [← item, ← List.drop_eq_getElem_cons inside, List.take_append_drop]
    refine .inr ⟨((readBlocks bytes).take kept).map (Block.rule decodeCriteria),
      next.rule decodeCriteria,
      ((readBlocks bytes).drop (kept + 1)).map (Block.rule decodeCriteria), next, ?_, ?_,
      next.standsBehind_rule _, ?_⟩
    · conv => lhs; rw [split, List.map_append, List.map_cons]
    · rw [List.length_map, List.length_take, Nat.min_eq_left (Nat.le_of_lt inside)]
      exact found
    · rw [blocks_eq, front, List.map_append]
      rfl

/-! Stored bytes. -/

/-- Whatever is written can be read again. -/
theorem exists_ofBytes_toBytes (smart : Smart) : ∃ stored, ofBytes smart.toBytes = .ok stored := by
  have info : require (info smart).encode Info.leastWidth .infoRecord = .ok () := by
    rw [require_eq_ok_iff, Info.length_encode]
    decide
  have long : headerWidth ≤ ((encodeCriteria smart.ruleset).take
      (fit32 (encodeCriteria smart.ruleset).length)).length := by
    rw [List.length_take, Nat.min_eq_left (fit32_le _), encodeCriteria, length_encodeRuleSet]
    exact Nat.le_min.2 ⟨Nat.le_add_right _ _, by decide⟩
  rw [ofBytes_toBytes, decodeRecords, Info.decode, info, decodeCriteria_of_long long]
  exact ⟨_, rfl⟩

/-- Reading a criteria record fails on its header only. Behind a header with their count, blocks are
read as the rules that they are read as alone, whatever follows them; of a record that is cut off
behind its header the first rules are left, perhaps with an unknown one behind the head of the next
rule; and stored bytes can always be read. -/
theorem read_block_by_block :
    (∀ bytes, (∃ fault, decodeCriteria bytes = .error fault) ↔
      bytes.length < 16 ∨ readCount bytes ≠ 0 ∧ bytes.length < 136) ∧
    (∀ header : List UInt8, header.length = 136 → ∀ records : List (List UInt8),
      readCount header = records.length → (∀ record ∈ records, IsBlock record) →
        (∀ rest, decodeCriteria (header ++ (records.flatten ++ rest)) =
          .ok ⟨readConjunction header, records.map ruleOfBlock⟩) ∧
        ∀ single : List UInt8, single.length = 136 → readCount single = 1 → ∀ record ∈ records,
          decodeCriteria (single ++ record) = .ok ⟨readConjunction single, [ruleOfBlock record]⟩) ∧
    (∀ bytes front : List UInt8, front <+: bytes → 136 ≤ front.length →
      ∃ whole cut, decodeCriteria bytes = .ok whole ∧ decodeCriteria front = .ok cut ∧
        cut.conjunction = whole.conjunction ∧ IsCutOff bytes whole.rules cut.rules) ∧
    ∀ smart : Smart, ∃ stored, ofBytes smart.toBytes = .ok stored := by
  refine ⟨exists_fault_iff, ?_, ?_, exists_ofBytes_toBytes⟩
  · intro header width records count each
    refine ⟨decodeCriteria_header width count each, fun single width' one record mem => ?_⟩
    have alone := decodeCriteria_header width' (show readCount single = [record].length from one)
      (fun next only => List.mem_singleton.1 only ▸ each record mem) []
    rwa [List.flatten_singleton, List.append_nil] at alone
  · intro bytes front cut long
    have inside : 136 ≤ bytes.length := Nat.le_trans long cut.length_le
    rw [List.prefix_iff_eq_take.1 cut] at long ⊢
    have conjunction : readConjunction (bytes.take front.length) = readConjunction bytes := by
      rw [List.length_take] at long
      rw [readConjunction, Bytes.fieldAt_take (by omega)]
      rfl
    refine ⟨_, _, decodeCriteria_of_long inside, decodeCriteria_of_long long, conjunction,
      isCutOff_take ?_⟩
    rw [List.length_take] at long
    exact Nat.le_trans long (Nat.min_le_left _ _)

/-- A rating that cannot be read, and a genre. -/
def ratingAndGenre : List (List UInt8) :=
  [encodeBlock ⟨.rating, .pos, .is, ()⟩ false [0, 1, 2],
   encodeBlock ⟨.genre, .strNeg, .contains, ()⟩ false (Text.Utf16.encode "Jazz")]

/-- A header for two rules, and one for a rule alone. -/
def headerOfTwo : List UInt8 := encodeRuleSet .or [[], []]

def headerOfOne : List UInt8 := encodeRuleSet .and [[]]

theorem read_block_by_block_ratingAndGenre :
    (∀ record ∈ ratingAndGenre, IsBlock record) ∧
      decodeCriteria (headerOfTwo ++ (ratingAndGenre.flatten ++ [7])) =
        .ok ⟨.or, [.unknown ⟨.rating, .pos, .is, ()⟩,
          .text ⟨.genre, .strNeg, .contains, ["Jazz"]⟩]⟩ ∧
      (∀ record ∈ ratingAndGenre, decodeCriteria (headerOfOne ++ record) =
        .ok ⟨.and, [ruleOfBlock record]⟩) ∧
      ∃ whole cut, decodeCriteria (headerOfTwo ++ ratingAndGenre.flatten) = .ok whole ∧
        decodeCriteria ((headerOfTwo ++ ratingAndGenre.flatten).take 252) = .ok cut ∧
        cut.conjunction = whole.conjunction ∧
        IsCutOff (headerOfTwo ++ ratingAndGenre.flatten) whole.rules cut.rules := by
  have whole : ∀ record ∈ ratingAndGenre, IsBlock record := by decide +kernel
  have read := read_block_by_block.2.1 headerOfTwo (by decide +kernel) ratingAndGenre
    (by decide +kernel) whole
  refine ⟨whole, (read.1 [7]).trans ?_, read.2 headerOfOne (by decide +kernel) (by decide +kernel),
    read_block_by_block.2.2.1 _ _ (List.take_prefix _ _) (by decide +kernel)⟩
  have rules : ratingAndGenre.map ruleOfBlock =
      [.unknown ⟨.rating, .pos, .is, ()⟩, .text ⟨.genre, .strNeg, .contains, ["Jazz"]⟩] := by
    decide +kernel
  rw [rules]
  rfl

end Smart

end MusicLibrary
