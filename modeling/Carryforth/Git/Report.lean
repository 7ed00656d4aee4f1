import Carryforth.Lib.PktLine

/-!
# Git transport: the report-status of a push

A receive-pack subprocess reports on a push in pkt-lines: how unpacking went, and for each command
whether its ref was updated.  When a side band was negotiated the bytes of the report are cut into
packets of channel one, with packets of channels two and three between them.
`receivePackReportRejected` reads each packet of channel one on its own, so what it sees depends on
where the report was cut (`rejected_of_intact`).
-/

namespace Carryforth

namespace Git

open PktLine

/-! ## Reading -/

/-- The bytes `ng `, with which the status of a rejected command starts. -/
def ngMark : List UInt8 := [110, 103, 32]

/-- Whether the standard output of a receive-pack contains the status of a rejected command. -/
def receivePackReportRejected (stdout : List UInt8) : Bool :=
  (payloads stdout).any fun payload =>
    match payload with
    | 1 :: data => (payloads data).any (ngMark.isPrefixOf ·)
    | 2 :: _ | 3 :: _ => false
    | line => ngMark.isPrefixOf line

/-! ## Writing -/

inductive RefStatus
  | ok (ref : List UInt8)
  | ng (ref reason : List UInt8)
deriving DecidableEq, Repr

namespace RefStatus

/-- The text of the status, with its line end. -/
def line : RefStatus → List UInt8
  | .ok ref => [111, 107, 32] ++ ref ++ [10]
  | .ng ref reason => ngMark ++ ref ++ [32] ++ reason ++ [10]

def isNg : RefStatus → Bool
  | .ok _ => false
  | .ng .. => true

theorem isPrefixOf_line (status : RefStatus) : ngMark.isPrefixOf status.line = status.isNg := by
  cases status <;> rfl

end RefStatus

/-- The most bytes a packet may have, its length digits included. -/
def largePacketMax : Nat := 65520

/-- A report: the outcome of unpacking and the statuses, each short enough for a packet. -/
structure Report where
  unpack : List UInt8
  statuses : List RefStatus
  unpackFits : unpack.length + 12 ≤ largePacketMax
  statusFits : ∀ status ∈ statuses, status.line.length + 4 ≤ largePacketMax

namespace Report

/-- The bytes `unpack <outcome>` and a line end. -/
def unpackLine (report : Report) : List UInt8 :=
  [117, 110, 112, 97, 99, 107, 32] ++ report.unpack ++ [10]

def lines (report : Report) : List (List UInt8) :=
  report.unpackLine :: report.statuses.map RefStatus.line

def bytes (report : Report) : List UInt8 := encode report.lines ++ flush

def rejects (report : Report) : Bool := report.statuses.any RefStatus.isNg

theorem fits (report : Report) : ∀ line ∈ report.lines, Fits line := by
  intro line mem
  have bound : line.length + 4 ≤ largePacketMax := by
    rcases List.mem_cons.1 mem with rfl | mem
    · have short := report.unpackFits
      simp only [unpackLine, List.length_append, List.length_cons, List.length_nil]
      omega
    · obtain ⟨status, listed, rfl⟩ := List.mem_map.1 mem
      exact report.statusFits status listed
  exact Nat.lt_of_le_of_lt bound (by decide)

/-- Exactly the statuses of rejected commands start with the mark. -/
theorem rejects_iff (report : Report) :
    report.rejects = true ↔ ∃ line ∈ report.lines, ngMark.isPrefixOf line = true := by
  simp only [rejects, lines, List.any_eq_true, List.mem_cons, List.mem_map, exists_eq_or_imp,
    ← RefStatus.isPrefixOf_line]
  constructor
  · rintro ⟨status, mem, ng⟩
    exact .inr ⟨_, ⟨status, mem, rfl⟩, ng⟩
  · rintro (unpack | ⟨_, ⟨status, mem, rfl⟩, ng⟩)
    · cases unpack
    · exact ⟨status, mem, ng⟩

end Report

inductive BandPacket
  | data (bytes : List UInt8)
  | progress (bytes : List UInt8)
  | error (bytes : List UInt8)
deriving DecidableEq, Repr

namespace BandPacket

/-- The payload: the channel number and the bytes. -/
def payload : BandPacket → List UInt8
  | .data bytes => 1 :: bytes
  | .progress bytes => 2 :: bytes
  | .error bytes => 3 :: bytes

def data? : BandPacket → Option (List UInt8)
  | .data bytes => some bytes
  | _ => none

end BandPacket

/-- The ways to send a report: as it is, or cut into the data packets of a side band. -/
inductive Framing (report : Report)
  | plain
  | sideBand (packets : List BandPacket)
      (small : ∀ packet ∈ packets, packet.payload.length + 4 ≤ largePacketMax)
      (nonempty : ∀ piece ∈ packets.filterMap BandPacket.data?, piece ≠ [])
      (carries : (packets.filterMap BandPacket.data?).flatten = report.bytes)

namespace Framing

variable {report : Report}

def stdout : Framing report → List UInt8
  | .plain => report.bytes
  | .sideBand packets .. => encode (packets.map BandPacket.payload) ++ flush

end Framing

/-! ## Pieces -/

namespace Report

variable (report : Report) (pieces : List (List UInt8))

/-- A status line begins where the earlier pieces end. -/
def StartsLine (earlier : List (List UInt8)) : Prop :=
  ∃ done rest, report.lines = done ++ rest ∧ earlier.flatten = encode done

/-- The status of a rejected command lies whole in a piece that starts with a line. -/
def Delivered : Prop :=
  ∃ earlier piece later, pieces = earlier ++ piece :: later ∧
    ∃ done inside line rest, report.lines = done ++ (inside ++ line :: rest) ∧
      earlier.flatten = encode done ∧ encode (inside ++ [line]) <+: piece ∧
      ngMark.isPrefixOf line = true

/-- No piece that starts inside a line contains the mark of a rejected command. -/
def Unmarked : Prop :=
  ∀ earlier piece later, pieces = earlier ++ piece :: later →
    report.StartsLine earlier ∨ ¬ngMark <:+: piece

variable {report pieces}

theorem Delivered.rejects (delivered : report.Delivered pieces) : report.rejects = true := by
  obtain ⟨-, -, -, -, done, inside, line, rest, split, -, -, ng⟩ := delivered
  exact report.rejects_iff.2 ⟨line, by rw [split]; simp, ng⟩

/-- What lies whole behind a line boundary is read. -/
theorem Delivered.exists_ng (delivered : report.Delivered pieces) :
    ∃ piece ∈ pieces, ∃ line ∈ payloads piece, ngMark.isPrefixOf line = true := by
  obtain ⟨earlier, piece, later, rfl, done, inside, line, rest, split, -, ⟨tail, rfl⟩, ng⟩ := delivered
  refine ⟨_, List.mem_append_right _ List.mem_cons_self, line, ?_, ng⟩
  have fits : ∀ other ∈ inside ++ [line], Fits other := fun other mem => by
    refine report.fits other ?_
    rw [split]
    rcases List.mem_append.1 mem with mem | mem
    · simp [mem]
    · rw [List.mem_singleton.1 mem]
      simp
  rw [payloads_encode_append fits]
  simp

/-- In pieces without stray marks nothing else is. -/
theorem Unmarked.delivered (unmarked : report.Unmarked pieces)
    (carries : pieces.flatten = report.bytes)
    (read : ∃ piece ∈ pieces, ∃ line ∈ payloads piece, ngMark.isPrefixOf line = true) :
    report.Delivered pieces := by
  obtain ⟨piece, mem, line, found, ng⟩ := read
  obtain ⟨earlier, later, rfl⟩ := List.append_of_mem mem
  rcases unmarked earlier piece later rfl with ⟨done, rest, split, behind⟩ | free
  · have part : piece <+: encode rest ++ flush := by
      rw [bytes, split, encode_append, List.flatten_append, behind, List.flatten_cons,
        List.append_assoc, List.append_cancel_left_eq] at carries
      exact ⟨_, carries⟩
    have fits : ∀ other ∈ rest, Fits other := fun other mem =>
      report.fits other (by rw [split]; exact List.mem_append_right _ mem)
    obtain ⟨inside, after, rfl, whole⟩ := (mem_payloads_of_part fits part).1 found
    exact ⟨earlier, piece, later, rfl, done, inside, line, after, split, behind, whole, ng⟩
  · have stray : ngMark <:+: piece :=
      (List.isPrefixOf_iff_prefix.1 ng).isInfix.trans (infix_of_mem_payloads found)
    exact absurd stray free

end Report

/-! ## What is recognised -/

namespace Framing

variable {report : Report}

theorem rejected_plain : receivePackReportRejected report.bytes = report.rejects := by
  have stopped : payloads flush = [] := payloads_flush
  rw [receivePackReportRejected, Report.bytes, payloads_encode_append report.fits, stopped,
    List.append_nil, Bool.eq_iff_iff, report.rejects_iff, List.any_eq_true]
  refine exists_congr fun line => and_congr_right fun mem => ?_
  rcases List.mem_cons.1 mem with rfl | mem
  · rfl
  · obtain ⟨status, -, rfl⟩ := List.mem_map.1 mem
    cases status <;> rfl

theorem rejected_sideBand {packets : List BandPacket}
    (small : ∀ packet ∈ packets, packet.payload.length + 4 ≤ largePacketMax) :
    receivePackReportRejected (encode (packets.map BandPacket.payload) ++ flush) = true ↔
      ∃ piece ∈ packets.filterMap BandPacket.data?,
        ∃ line ∈ payloads piece, ngMark.isPrefixOf line = true := by
  have fits : ∀ payload ∈ packets.map BandPacket.payload, Fits payload := by
    intro payload mem
    obtain ⟨packet, listed, rfl⟩ := List.mem_map.1 mem
    exact Nat.lt_of_le_of_lt (small packet listed) (by decide)
  rw [receivePackReportRejected, payloads_encode_append fits, payloads_flush, List.append_nil,
    List.any_map, List.any_eq_true]
  constructor
  · rintro ⟨packet, mem, rejected⟩
    cases packet with
    | data bytes =>
      obtain ⟨line, found, ng⟩ := List.any_eq_true.1 rejected
      exact ⟨bytes, List.mem_filterMap.2 ⟨_, mem, rfl⟩, line, found, ng⟩
    | progress | error => cases rejected
  · rintro ⟨piece, mem, line, found, ng⟩
    obtain ⟨packet, mem, data⟩ := List.mem_filterMap.1 mem
    cases packet with
    | data bytes =>
      cases data
      exact ⟨_, mem, List.any_eq_true.2 ⟨line, found, ng⟩⟩
    | progress | error => cases data

/-- The cuts leave no stray marks. -/
def Unmarked : Framing report → Prop
  | .plain => True
  | .sideBand packets .. => report.Unmarked (packets.filterMap BandPacket.data?)

/-- The cuts leave the outcome as it is: some rejection lies whole behind a line boundary, or there
is none and no piece that starts inside a line looks like one. -/
def Intact : Framing report → Prop
  | .plain => True
  | .sideBand packets .. =>
    let pieces := packets.filterMap BandPacket.data?
    report.Delivered pieces ∨ report.rejects = false ∧ report.Unmarked pieces

/-- A push whose report is intact is recognised for what it is; if there are no stray marks, no
other one is. -/
theorem rejected_of_intact (framing : Framing report) :
    (framing.Intact → receivePackReportRejected framing.stdout = report.rejects) ∧
      (framing.Unmarked → receivePackReportRejected framing.stdout = report.rejects →
        framing.Intact) := by
  cases framing with
  | plain => exact ⟨fun _ => rejected_plain, fun _ _ => trivial⟩
  | sideBand packets small nonempty carries =>
    rw [stdout, Bool.eq_iff_iff, rejected_sideBand small]
    constructor
    · rintro (delivered | ⟨accepted, unmarked⟩)
      · exact ⟨fun _ => delivered.rejects, fun _ => delivered.exists_ng⟩
      · refine ⟨fun read => (unmarked.delivered carries read).rejects, fun rejects => ?_⟩
        rw [accepted] at rejects
        cases rejects
    · intro unmarked recognised
      cases rejects : report.rejects with
      | true => exact .inl (Report.Unmarked.delivered unmarked carries (recognised.2 rejects))
      | false => exact .inr ⟨rejects, unmarked⟩

end Framing

/-! ## Two cuts of a report -/

/-- One rejected command: `ng r x`. -/
def declined : Report where
  unpack := [111, 107]
  statuses := [.ng [114] [120]]
  unpackFits := by decide
  statusFits := by decide

/-- The report in three packets: half of the unpack line, the other half, and the status. -/
def declinedBetween : Framing declined :=
  .sideBand [.data (declined.bytes.take 7), .progress [46], .data ((declined.bytes.take 14).drop 7),
    .data (declined.bytes.drop 14)] (by decide) (by decide) (by decide)

theorem rejected_of_intact_between :
    declinedBetween.Intact ∧ receivePackReportRejected declinedBetween.stdout = declined.rejects :=
  have intact : declinedBetween.Intact :=
    .inl ⟨[declined.bytes.take 7, (declined.bytes.take 14).drop 7], declined.bytes.drop 14, [], rfl,
      [declined.unpackLine], [], (RefStatus.ng [114] [120]).line, [], rfl, rfl, ⟨flush, rfl⟩, rfl⟩
  ⟨intact, (Framing.rejected_of_intact declinedBetween).1 intact⟩

/-- The report in two packets, with the cut behind the first two digits of the status line. -/
def declinedCut : Framing declined :=
  .sideBand [.data (declined.bytes.take 16), .progress [46], .data (declined.bytes.drop 16)]
    (by decide) (by decide) (by decide)

/-- A rejected push that is not recognised. -/
theorem declined_not_rejected : declined.rejects = true ∧
    receivePackReportRejected declinedCut.stdout = false := by
  decide +kernel

end Git

end Carryforth
