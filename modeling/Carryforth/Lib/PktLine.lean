import Mathlib.Data.List.Basic
import Mathlib.Tactic

/-!
# Pkt-line streams

A pkt-line is four hexadecimal digits that count themselves and the payload after them; a count
below four is a control packet without payload.  `payloads` reads a stream as a reader does that
stops at the first malformed or truncated packet, and `payloads_encode_append` says what it finds in
a well-formed one.  `decode` reads a whole stream and keeps the control packets
(`decode_flatMap_wire`).
-/

namespace PktLine

/-! ## Lengths -/

/-- The digit of a value below sixteen, in lower case. -/
def hexDigit (n : Nat) : UInt8 := if n < 10 then UInt8.ofNat (48 + n) else UInt8.ofNat (87 + n)

/-- The value of a hexadecimal digit of either case. -/
def hexValue (b : UInt8) : Option Nat :=
  if 48 ≤ b.toNat ∧ b.toNat ≤ 57 then some (b.toNat - 48)
  else if 97 ≤ b.toNat ∧ b.toNat ≤ 102 then some (b.toNat - 87)
  else if 65 ≤ b.toNat ∧ b.toNat ≤ 70 then some (b.toNat - 55)
  else none

theorem hexValue_hexDigit : ∀ n < 16, hexValue (hexDigit n) = some n := by decide

/-- The number written by a list of hexadecimal digits. -/
def readDigits (digits : List UInt8) : Option Nat :=
  digits.foldlM (fun acc b => (hexValue b).map (16 * acc + ·)) 0

def lengthDigits (n : Nat) : List UInt8 :=
  [hexDigit (n / 4096), hexDigit (n / 256 % 16), hexDigit (n / 16 % 16), hexDigit (n % 16)]

/-- The length written by four bytes; as in an unsigned integer parser, a sign `+` may stand before
the digits. -/
def readLength (head : List UInt8) : Option Nat :=
  match head with
  | 43 :: digits => readDigits digits
  | digits => readDigits digits

theorem hexDigit_ne_plus : ∀ n < 16, hexDigit n ≠ 43 := by decide

theorem readLength_lengthDigits {n : Nat} (small : n < 65536) :
    readLength (lengthDigits n) = some n := by
  have first : n / 4096 < 16 := by omega
  have digits : readDigits (lengthDigits n) = some n := by
    simp only [readDigits, lengthDigits, List.foldlM_cons, List.foldlM_nil,
      hexValue_hexDigit _ first, hexValue_hexDigit _ (Nat.mod_lt _ (by decide : 0 < 16)),
      Option.map_some, Option.bind_eq_bind, Option.bind_some, Option.pure_def, Option.some.injEq]
    omega
  unfold readLength
  split
  · next sign => exact absurd (List.cons.inj sign).1 (hexDigit_ne_plus _ first)
  · exact digits

/-! ## Reading -/

/-- What stands at the start of a stream. -/
inductive Frame
  | stop
  | control (rest : List UInt8)
  | packet (payload rest : List UInt8)
deriving DecidableEq, Repr

/-- The first packet of a stream; a malformed or truncated one stops the reader. -/
def frame (stream : List UInt8) : Frame :=
  if stream.length < 4 then .stop
  else match readLength (stream.take 4) with
    | none => .stop
    | some n =>
      if n < 4 then .control (stream.drop 4)
      else if stream.length < n then .stop
      else .packet ((stream.take n).drop 4) (stream.drop n)

/-- The payloads of the first `fuel` packets. -/
def payloadsUpTo : Nat → List UInt8 → List (List UInt8)
  | 0, _ => []
  | fuel + 1, stream =>
    match frame stream with
    | .stop => []
    | .control rest => payloadsUpTo fuel rest
    | .packet payload rest => payload :: payloadsUpTo fuel rest

/-- The payloads of a stream.  Every packet takes four bytes, so the length of the stream is enough
fuel. -/
def payloads (stream : List UInt8) : List (List UInt8) := payloadsUpTo stream.length stream

theorem rest_of_control {stream rest : List UInt8} (h : frame stream = .control rest) :
    rest <:+ stream ∧ rest.length < stream.length := by
  unfold frame at h
  split_ifs at h with short
  split at h
  · cases h
  · split_ifs at h
    cases h
    refine ⟨List.drop_suffix _ _, ?_⟩
    rw [List.length_drop]
    omega

theorem rest_of_packet {stream payload rest : List UInt8} (h : frame stream = .packet payload rest) :
    payload <:+: stream ∧ rest <:+ stream ∧ rest.length < stream.length := by
  unfold frame at h
  split_ifs at h with short
  split at h
  · cases h
  · split_ifs at h
    cases h
    refine ⟨(List.drop_suffix _ _).isInfix.trans (List.take_prefix _ _).isInfix,
      List.drop_suffix _ _, ?_⟩
    rw [List.length_drop]
    omega

theorem payloadsUpTo_eq {fuel : Nat} {stream : List UInt8} (enough : stream.length ≤ fuel) :
    payloadsUpTo fuel stream = payloads stream := by
  induction fuel using Nat.strong_induction_on generalizing stream with
  | _ fuel ih =>
    match fuel, stream with
    | fuel, [] => cases fuel <;> rfl
    | fuel + 1, b :: stream =>
      rw [payloads, List.length_cons, payloadsUpTo, payloadsUpTo]
      rw [List.length_cons] at enough
      cases h : frame (b :: stream) with
      | stop => rfl
      | control rest =>
        have shorter := (rest_of_control h).2
        rw [List.length_cons] at shorter
        exact (ih fuel (by omega) (by omega)).trans
          (ih stream.length (by omega) (by omega)).symm
      | packet payload rest =>
        have shorter := (rest_of_packet h).2.2
        rw [List.length_cons] at shorter
        exact congrArg _ ((ih fuel (by omega) (by omega)).trans
          (ih stream.length (by omega) (by omega)).symm)

/-- Reading a stream is reading its first packet and then the rest. -/
theorem payloads_eq (stream : List UInt8) : payloads stream =
    match frame stream with
    | .stop => []
    | .control rest => payloads rest
    | .packet payload rest => payload :: payloads rest := by
  rw [payloads]
  cases stream with
  | nil => rfl
  | cons b stream =>
    rw [List.length_cons, payloadsUpTo]
    cases h : frame (b :: stream) with
    | stop => rfl
    | control rest =>
      exact payloadsUpTo_eq (Nat.lt_succ_iff.1 (rest_of_control h).2)
    | packet payload rest =>
      exact congrArg _ (payloadsUpTo_eq (Nat.lt_succ_iff.1 (rest_of_packet h).2.2))

theorem infix_of_mem_payloads {stream payload : List UInt8} (mem : payload ∈ payloads stream) :
    payload <:+: stream := by
  induction stream using WellFounded.induction (measure List.length).wf with
  | _ stream ih =>
    rw [payloads_eq] at mem
    cases h : frame stream with
    | stop =>
      rw [h] at mem
      cases mem
    | control rest =>
      rw [h] at mem
      obtain ⟨behind, shorter⟩ := rest_of_control h
      exact (ih rest shorter mem).trans behind.isInfix
    | packet first rest =>
      rw [h] at mem
      obtain ⟨inside, behind, shorter⟩ := rest_of_packet h
      rcases List.mem_cons.1 mem with rfl | mem
      · exact inside
      · exact (ih rest shorter mem).trans behind.isInfix

/-! ## Writing -/

def packet (payload : List UInt8) : List UInt8 := lengthDigits (payload.length + 4) ++ payload

/-- The control packet that ends a stream. -/
def flush : List UInt8 := lengthDigits 0

def encode (lines : List (List UInt8)) : List UInt8 := (lines.map packet).flatten

theorem length_packet (payload : List UInt8) : (packet payload).length = payload.length + 4 := by
  rw [packet, List.length_append, Nat.add_comm]
  rfl

theorem encode_cons (line : List UInt8) (lines : List (List UInt8)) :
    encode (line :: lines) = packet line ++ encode lines := rfl

theorem encode_append (a b : List (List UInt8)) : encode (a ++ b) = encode a ++ encode b := by
  rw [encode, List.map_append, List.flatten_append]
  rfl

/-- A payload that fits a packet with a four-digit length. -/
def Fits (payload : List UInt8) : Prop := payload.length + 4 < 65536

theorem frame_packet {payload : List UInt8} (fits : Fits payload) (rest : List UInt8) :
    frame (packet payload ++ rest) = .packet payload rest := by
  have length := length_packet payload
  have head : (packet payload ++ rest).take 4 = lengthDigits (payload.length + 4) := rfl
  have whole : (packet payload ++ rest).take (payload.length + 4) = packet payload :=
    List.take_left' length
  unfold frame
  rw [if_neg (by rw [List.length_append]; omega), head, readLength_lengthDigits fits]
  dsimp only
  rw [if_neg (by omega), if_neg (by rw [List.length_append]; omega), whole,
    List.drop_left' length]
  rfl

theorem frame_control {n : Nat} (small : n < 4) (rest : List UInt8) :
    frame (lengthDigits n ++ rest) = .control rest := by
  have head : (lengthDigits n ++ rest).take 4 = lengthDigits n := rfl
  unfold frame
  rw [if_neg (by rw [List.length_append]; exact Nat.not_lt.2 (Nat.le_add_right 4 _)), head,
    readLength_lengthDigits (by omega)]
  exact if_pos small

theorem payloads_packet_append {payload : List UInt8} (fits : Fits payload) (rest : List UInt8) :
    payloads (packet payload ++ rest) = payload :: payloads rest := by
  rw [payloads_eq, frame_packet fits]

/-- A reader finds what was written, and goes on behind it. -/
theorem payloads_encode_append {lines : List (List UInt8)} (fit : ∀ line ∈ lines, Fits line)
    (rest : List UInt8) : payloads (encode lines ++ rest) = lines ++ payloads rest := by
  induction lines with
  | nil => rfl
  | cons line lines ih =>
    rw [encode_cons, List.append_assoc, payloads_packet_append (fit line List.mem_cons_self),
      ih fun other mem => fit other (List.mem_cons_of_mem _ mem)]
    rfl

theorem payloads_flush : payloads flush = [] := by decide

theorem payloads_of_truncated {payload stream : List UInt8} (fits : Fits payload)
    (part : stream <+: packet payload) (proper : stream.length < (packet payload).length) :
    payloads stream = [] := by
  rw [payloads_eq]
  suffices frame stream = .stop by rw [this]
  unfold frame
  split_ifs with short
  · rfl
  · have head : stream.take 4 = lengthDigits (payload.length + 4) :=
      (List.prefix_iff_eq_take.1 ((List.take_prefix 4 stream).trans part)).trans (by
        rw [List.length_take, min_eq_left (Nat.not_lt.1 short)]
        rfl)
    rw [length_packet] at proper
    rw [head, readLength_lengthDigits fits]
    dsimp only
    rw [if_neg (by omega), if_pos proper]

/-- What a reader finds in the first bytes of a stream: the packets that lie whole in them. -/
theorem mem_payloads_of_part {lines : List (List UInt8)} (fit : ∀ line ∈ lines, Fits line)
    {stream : List UInt8} (part : stream <+: encode lines ++ flush) {line : List UInt8} :
    line ∈ payloads stream ↔
      ∃ before after, lines = before ++ line :: after ∧ encode (before ++ [line]) <+: stream := by
  constructor
  · intro found
    induction lines generalizing stream with
    | nil =>
      -- only the flush, or a part of it, is left
      have none : payloads stream = [] := by
        rw [encode, List.map_nil, List.flatten_nil, List.nil_append] at part
        by_cases whole : stream.length < 4
        · rw [payloads_eq, frame, if_pos whole]
        · rw [part.eq_of_length_le (Nat.not_lt.1 whole), payloads_flush]
      rw [none] at found
      cases found
    | cons first lines ih =>
      rw [encode_cons, List.append_assoc] at part
      have firstFits := fit first List.mem_cons_self
      rcases Nat.lt_or_ge stream.length (packet first).length with proper | whole
      · have part := List.prefix_of_prefix_length_le part (List.prefix_append _ _) proper.le
        rw [payloads_of_truncated firstFits part proper] at found
        cases found
      · obtain ⟨stream, rfl⟩ :=
          List.prefix_of_prefix_length_le (List.prefix_append _ _) part whole
        rw [payloads_packet_append firstFits] at found
        rcases List.mem_cons.1 found with rfl | later
        · exact ⟨[], lines, rfl, by rw [List.nil_append, encode_cons]; simp [encode]⟩
        · obtain ⟨before, after, split, inside⟩ :=
            ih (fun other mem => fit other (List.mem_cons_of_mem _ mem))
              ((List.prefix_append_right_inj _).1 part) later
          exact ⟨first :: before, after, by rw [split]; rfl,
            by rw [List.cons_append, encode_cons]; exact (List.prefix_append_right_inj _).2 inside⟩
  · rintro ⟨before, after, rfl, rest, rfl⟩
    have fits : ∀ other ∈ before ++ [line], Fits other := fun other mem => by
      refine fit other ?_
      rcases List.mem_append.1 mem with mem | mem
      · exact List.mem_append_left _ mem
      · rw [List.mem_singleton.1 mem]
        simp
    rw [payloads_encode_append fits]
    simp

/-! ## Whole streams -/

inductive Packet
  | control (length : Nat)
  | line (payload : List UInt8)
deriving DecidableEq, Repr

def Packet.wire : Packet → List UInt8
  | .control n => lengthDigits n
  | .line payload => packet payload

theorem Packet.four_le_wire (p : Packet) : 4 ≤ p.wire.length := by
  cases p with
  | control n => exact Nat.le_refl 4
  | line payload =>
    rw [wire, length_packet]
    omega

/-- A packet with a length that its digits can say. -/
def Packet.Fits : Packet → Prop
  | .control n => n < 4
  | .line payload => PktLine.Fits payload

def decodeUpTo : Nat → List UInt8 → Option (List Packet)
  | _, [] => some []
  | 0, _ :: _ => none
  | fuel + 1, b :: stream =>
    match frame (b :: stream) with
    | .stop => none
    | .control rest =>
      (decodeUpTo fuel rest).map (.control ((readLength ((b :: stream).take 4)).getD 0) :: ·)
    | .packet payload rest => (decodeUpTo fuel rest).map (.line payload :: ·)

/-- The packets of a stream that holds nothing else. -/
def decode (stream : List UInt8) : Option (List Packet) := decodeUpTo stream.length stream

theorem decodeUpTo_flatMap_wire {packets : List Packet} (fit : ∀ p ∈ packets, p.Fits) {fuel : Nat}
    (enough : (packets.flatMap Packet.wire).length ≤ fuel) :
    decodeUpTo fuel (packets.flatMap Packet.wire) = some packets := by
  induction packets generalizing fuel with
  | nil => cases fuel <;> rfl
  | cons p packets ih =>
    have fits := fit p List.mem_cons_self
    have later : ∀ fuel, (packets.flatMap Packet.wire).length ≤ fuel →
        decodeUpTo fuel (packets.flatMap Packet.wire) = some packets :=
      fun fuel enough => ih (fun p mem => fit p (List.mem_cons_of_mem _ mem)) enough
    rw [List.flatMap_cons] at enough ⊢
    rw [List.length_append] at enough
    have four := p.four_le_wire
    obtain ⟨fuel, rfl⟩ : ∃ n, fuel = n + 1 := ⟨fuel - 1, by omega⟩
    cases p with
    | control n =>
      have first := frame_control fits (packets.flatMap Packet.wire)
      have length := readLength_lengthDigits (Nat.lt_trans fits (by decide))
      simp only [Packet.wire, lengthDigits, List.cons_append] at first length ⊢
      rw [decodeUpTo, first]
      simp only [later fuel (by omega), List.take_succ_cons, List.take_zero, length,
        Option.getD_some, Option.map_some]
    | line payload =>
      have first := frame_packet fits (packets.flatMap Packet.wire)
      simp only [Packet.wire, packet, lengthDigits, List.cons_append] at first ⊢
      rw [decodeUpTo, first]
      simp only [later fuel (by omega), Option.map_some]

theorem decode_flatMap_wire {packets : List Packet} (fit : ∀ p ∈ packets, p.Fits) :
    decode (packets.flatMap Packet.wire) = some packets :=
  decodeUpTo_flatMap_wire fit (Nat.le_refl _)

def Packet.payload? : Packet → Option (List UInt8)
  | .control _ => none
  | .line payload => some payload

/-- A reader that skips the control packets finds the lines. -/
theorem payloads_flatMap_wire {packets : List Packet} (fit : ∀ p ∈ packets, p.Fits) :
    payloads (packets.flatMap Packet.wire) = packets.filterMap Packet.payload? := by
  induction packets with
  | nil => rfl
  | cons p packets ih =>
    have fits := fit p List.mem_cons_self
    have later := ih fun p mem => fit p (List.mem_cons_of_mem _ mem)
    rw [List.flatMap_cons]
    cases p with
    | control n =>
      rw [Packet.wire, payloads_eq, frame_control fits]
      exact later
    | line payload => rw [Packet.wire, payloads_packet_append fits, later]; rfl

end PktLine
