import OtaBoot.VersionAnswer

set_option autoImplicit false

namespace OtaBoot

open CString (Token Numeral Alphanumeric)

/-- The fields are the texts of a version, a length in decimal and a CRC in hex. -/
structure Offer.Prints (offer : Offer) (length crc : Word) : Prop where
  short : 1 ≤ offer.version.length ∧ offer.version.length ≤ 15
  plain : ∀ b ∈ offer.version,
    b ≠ fieldSeparator ∧ b ≠ 0 ∧ b ≠ carriageReturn ∧ b ≠ lineFeed
  length : Numeral 10 offer.length length.toNat
  crc : Numeral 16 offer.crc crc.toNat

theorem fieldSeparator_symbol : ¬ Alphanumeric fieldSeparator := by
  unfold Alphanumeric
  decide

namespace Offer.Prints

variable {offer : Offer} {length crc : Word} (prints : offer.Prints length crc)
include prints

theorem version_token : Token fieldSeparator offer.version := by
  refine ⟨?_, fun b found => ⟨(prints.plain b found).1, (prints.plain b found).2.1⟩⟩
  intro none
  have short := prints.short.1
  rw [none] at short
  exact absurd short (by decide)

theorem single : lineFeed ∉ offer.text := by
  have outside : ¬ Alphanumeric lineFeed := by
    unfold Alphanumeric
    decide
  have inVersion : lineFeed ∉ offer.version := fun found => (prints.plain _ found).2.2.2 rfl
  have inLength : lineFeed ∉ offer.length :=
    fun found => outside (prints.length.characters (by decide) _ found)
  have inCrc : lineFeed ∉ offer.crc :=
    fun found => outside (prints.crc.characters (by decide) _ found)
  have inTag : lineFeed ∉ respTag := by decide
  have other : lineFeed ≠ fieldSeparator := by decide
  unfold Offer.text
  simp only [List.mem_append, List.mem_cons, inVersion, inLength, inCrc, inTag, other, or_self,
    not_false_eq_true]

theorem offers {eol : List Byte} (ends : LineEnd eol) : Offers (offer.text ++ eol) offer := by
  refine ⟨⟨eol, ends, rfl⟩, prints.version_token,
    prints.length.token (by decide) fieldSeparator_symbol,
    prints.crc.token (by decide) fieldSeparator_symbol, prints.single, ?_⟩
  intro last
  have character := prints.crc.characters (by decide) _ (List.mem_of_getLast? last)
  revert character
  unfold Alphanumeric
  decide

/-- `Version_Check_Get` returns what was printed. -/
theorem get {v : VersionCheck} (holds : v.Holds offer) : v.get = (offer.version, length, crc) := by
  have version : v.version = offer.version := by
    rw [holds.version, List.take_of_length_le prints.short.2]
  have size : v.length = length := by
    rw [holds.length, CString.strtoul_numeral (by decide) prints.length length.isLt,
      BitVec.ofNat_toNat, BitVec.setWidth_eq]
  have sum : v.crc = crc := by
    rw [holds.crc, CString.strtoul_numeral (by decide) prints.crc crc.isLt,
      BitVec.ofNat_toNat, BitVec.setWidth_eq]
  unfold VersionCheck.get
  rw [version, size, sum, if_neg prints.version_token.nonempty]

end Offer.Prints

/-- Only the end of a line contains its line feed. -/
theorem lineFeed_not_mem_dropLast {text eol : List Byte} (single : lineFeed ∉ text)
    (ends : LineEnd eol) : lineFeed ∉ (text ++ eol).dropLast := by
  have rest : lineFeed ∉ eol.dropLast := by
    rcases ends with rfl | rfl
    · decide
    · decide
  have nonempty : eol ≠ [] := by
    rcases ends with rfl | rfl
    · decide
    · decide
  rw [List.dropLast_append_of_ne_nil nonempty, List.mem_append]
  exact not_or.mpr ⟨single, rest⟩

namespace VersionNet

/-- The connection waits for the end of the line; so far it has delivered `line`. -/
structure Waiting (s : VersionNet) (id : Nat) (line : List Byte) : Prop where
  phase : s.phase id = some .established
  done : s.check.done = false
  resp : s.check.resp = line
  fits : line.length ≤ respLimit

/-- The attempt that `Version_Check_Start` begins, up to the data it has received. -/
def attemptOf (s : VersionNet) (aborted : List Nat) (chains : List (List Pbuf)) : VersionNet :=
  Run.after VersionNet.step s (.start .connecting aborted :: .connected s.started ::
    chains.map (.data s.started))

theorem Waiting.append {s : VersionNet} {id : Nat} {line : List Byte} (waiting : s.Waiting id line)
    {chain : List Pbuf} (fits : (line ++ chainBytes chain).length ≤ respLimit) :
    (s.check.append chain).resp = line ++ chainBytes chain := by
  have bounded : s.check.resp.length ≤ respLimit := by
    rw [waiting.resp]
    exact waiting.fits
  rw [VersionCheck.append_resp chain _ bounded, waiting.resp]
  exact List.take_of_length_le fits

/-- One callback without the line feed. -/
theorem Waiting.data {s : VersionNet} {id : Nat} {line : List Byte} (waiting : s.Waiting id line)
    {chain : List Pbuf} (fits : (line ++ chainBytes chain).length ≤ respLimit)
    (more : lineFeed ∉ line ++ chainBytes chain) :
    (s.data id chain).Waiting id (line ++ chainBytes chain) := by
  have resp := waiting.append fits
  have last : (s.check.append chain).resp.getLast? ≠ some lineFeed := by
    rw [resp]
    intro found
    exact more (List.mem_of_getLast? found)
  have part : s.check.recvData chain = (s.check.append chain, false) := by
    unfold VersionCheck.recvData
    dsimp only
    rw [if_neg last]
  have stepped : s.data id chain = { s with check := s.check.append chain } := by
    simp only [VersionNet.data, waiting.phase, part]
  obtain ⟨held, same⟩ := s.check.append_eq chain
  rw [stepped]
  refine ⟨waiting.phase, ?_, resp, fits⟩
  rw [same]
  exact waiting.done

/-- All callbacks before the line feed. -/
theorem Waiting.chains {id : Nat} (chains : List (List Pbuf)) :
    ∀ (s : VersionNet) (line : List Byte), s.Waiting id line →
    (line ++ chains.flatMap chainBytes).length ≤ respLimit →
    lineFeed ∉ line ++ chains.flatMap chainBytes →
    (Run.after VersionNet.step s (chains.map (.data id))).Waiting id
      (line ++ chains.flatMap chainBytes) := by
  induction chains with
  | nil =>
      intro s line waiting _ _
      rw [List.flatMap_nil, List.append_nil]
      exact waiting
  | cons chain rest ih =>
      intro s line waiting fits more
      rw [List.flatMap_cons, ← List.append_assoc] at fits more ⊢
      refine ih _ _ (waiting.data ?_ ?_) fits more
      · rw [List.length_append] at fits
        omega
      · intro found
        exact more (List.mem_append_left _ found)

/-- After `Version_Check_Start` and the connect callback. -/
theorem attemptOf_waiting {s : VersionNet} (idle : s.check.pcb = none) {aborted : List Nat}
    (deaf : ∀ id ∈ aborted, ¬ s.Registered id) : (s.attemptOf aborted []).Waiting s.started [] := by
  have opened := (start_opened_iff idle aborted).mpr deaf
  have connected : s.attemptOf aborted [] =
      (s.start .connecting aborted).setPhase s.started (some .established) := by
    show (s.start .connecting aborted).connect s.started = _
    simp only [connect, opened.phase]
    rfl
  rw [connected]
  exact ⟨setPhase_same _ _ _, opened.done, opened.resp, Nat.zero_le _⟩

theorem attemptOf_append (s : VersionNet) (aborted : List Nat) (front back : List (List Pbuf)) :
    s.attemptOf aborted (front ++ back) =
      Run.after VersionNet.step (s.attemptOf aborted front) (back.map (.data s.started)) := by
  unfold attemptOf
  rw [List.map_append]
  exact Run.after_append s (_ :: _ :: front.map _) (back.map _)

/-- Nothing is decided before the last byte. -/
theorem attemptOf_before {s : VersionNet} (idle : s.check.pcb = none) {aborted : List Nat}
    (deaf : ∀ id ∈ aborted, ¬ s.Registered id) {chains : List (List Pbuf)}
    (fits : (chains.flatMap chainBytes).length ≤ respLimit)
    (more : lineFeed ∉ chains.flatMap chainBytes) :
    (s.attemptOf aborted chains).Waiting s.started (chains.flatMap chainBytes) := by
  have waiting := attemptOf_waiting idle deaf
  rw [show chains = [] ++ chains from rfl, attemptOf_append]
  exact Waiting.chains chains _ [] waiting fits more

/-- The callback with the last byte of an offer. -/
theorem Waiting.offered {s : VersionNet} {id : Nat} {line : List Byte} (waiting : s.Waiting id line)
    {last : List Pbuf} (fits : (line ++ chainBytes last).length ≤ respLimit) {offer : Offer}
    (offers : Offers (line ++ chainBytes last) offer) :
    (s.data id last).check.ok = true ∧ (s.data id last).check.connected = true ∧
      (s.data id last).check.done = true ∧ (s.data id last).check.Holds offer := by
  have resp := waiting.append fits
  rw [← resp] at offers
  obtain ⟨eol, ends, whole⟩ := offers.line
  have feed : (s.check.append last).resp.getLast? = some lineFeed := by
    rw [whole]
    exact ends.last offer.text
  have tagged : CString.strncmpEq (s.check.append last).resp respTag = true := by
    rw [whole]
    exact beq_iff_eq.mpr rfl
  rw [(VersionLog.data_line (.inl waiting.phase) feed).1]
  exact ⟨(VersionCheck.answer_tagged tagged).1, rfl, rfl,
    (VersionCheck.parse_offers offers).answer tagged⟩

end VersionNet

/-- A whole answer is read the same in every segmentation, not before its last byte has
come; and `v_resp` never holds anything but the start of what was received. -/
theorem answer_segmented :
    (∀ (s : VersionNet) (aborted : List Nat) (offer : Offer) (length crc : Word) (eol : List Byte)
        (front : List (List Pbuf)) (last : List Pbuf),
      s.check.pcb = none → (∀ id ∈ aborted, ¬ s.Registered id) →
      offer.Prints length crc → LineEnd eol → (offer.text ++ eol).length ≤ respLimit →
      (front ++ [last]).flatMap chainBytes = offer.text ++ eol → chainBytes last ≠ [] →
      (∀ before, before <+: front → (s.attemptOf aborted before).check.done = false) ∧
        (s.attemptOf aborted (front ++ [last])).check.ok = true ∧
        (s.attemptOf aborted (front ++ [last])).check.connected = true ∧
        (s.attemptOf aborted (front ++ [last])).check.done = true ∧
        (s.attemptOf aborted (front ++ [last])).check.get = (offer.version, length, crc)) ∧
    ∀ events, let s := Run.after VersionLog.step VersionLog.initial events
      s.net.check.resp.length ≤ respLimit ∧ (s.tokenised = false → s.net.check.resp <+: s.stream) := by
  constructor
  · intro s aborted offer length crc eol front last idle deaf prints ends fits whole some
    rw [List.flatMap_append, List.flatMap_singleton] at whole
    rw [← whole] at fits
    have frontFits : (front.flatMap chainBytes).length ≤ respLimit := by
      rw [List.length_append] at fits
      omega
    have silent : lineFeed ∉ front.flatMap chainBytes := by
      have absent := lineFeed_not_mem_dropLast prints.single ends
      rw [← whole, List.dropLast_append_of_ne_nil some] at absent
      exact fun found => absent (List.mem_append_left _ found)
    constructor
    · rintro before ⟨rest, rfl⟩
      rw [List.flatMap_append] at frontFits silent
      rw [List.length_append] at frontFits
      exact (VersionNet.attemptOf_before idle deaf (by omega)
        fun found => silent (List.mem_append_left _ found)).done
    · have waiting := VersionNet.attemptOf_before idle deaf frontFits silent
      have offers := prints.offers ends
      rw [← whole] at offers
      obtain ⟨ok, connected, done, holds⟩ := waiting.offered fits offers
      rw [VersionNet.attemptOf_append]
      exact ⟨ok, connected, done, prints.get holds⟩
  · intro events s
    have follows : s.Follows := Run.invariant_always (I := VersionLog.Follows)
      (fun _ event held => held.step event) events _ VersionLog.initial_follows
    refine ⟨follows.bounded, ?_⟩
    intro fresh
    rw [follows.fresh fresh]
    exact List.take_prefix _ _

/-- `RESP|1.2|08|fF` with CRLF, cut inside the tag, inside a field and before the end. -/
def printedOffer : Offer := ⟨[0x31, 0x2E, 0x32], [0x30, 0x38], [0x66, 0x46]⟩

def offerFront : List (List Pbuf) :=
  [[⟨[0x52, 0x45, 0x53], by decide⟩, ⟨[], Nat.zero_lt_succ _⟩],
    [⟨[0x50, 0x7C, 0x31, 0x2E, 0x32, 0x7C, 0x30], by decide⟩]]

def offerLast : List Pbuf :=
  [⟨[0x38, 0x7C, 0x66], by decide⟩, ⟨[0x46, 0x0D, 0x0A], by decide⟩]

theorem printedOffer_prints : printedOffer.Prints 8 0xFF := by
  refine ⟨by decide, by decide, ⟨by decide, [0, 8], ?_, rfl⟩, ⟨by decide, [15, 15], ?_, rfl⟩⟩
  · exact .cons (by unfold CString.Denotes; decide) (.cons (by unfold CString.Denotes; decide) .nil)
  · exact .cons (by unfold CString.Denotes; decide) (.cons (by unfold CString.Denotes; decide) .nil)

theorem answer_segmented_printedOffer :
    (VersionNet.initial.attemptOf [] offerFront).check.done = false ∧
      (VersionNet.initial.attemptOf [] (offerFront ++ [offerLast])).check.get =
        ([0x31, 0x2E, 0x32], 8, 0xFF) := by
  have read := answer_segmented.1 .initial [] printedOffer 8 0xFF [carriageReturn, lineFeed]
    offerFront offerLast rfl (by simp) printedOffer_prints (.inr rfl) (by decide) (by decide)
    (by decide)
  exact ⟨read.1 offerFront List.prefix_rfl, read.2.2.2.2⟩

end OtaBoot
