import Gallows.Proofs.Frame.Streams

/-!
Messages over a stream whose writes fail. A message that is reported as written is written whole,
one whose write fails is cut off, and of one that is refused nothing is written; so whoever reads
finds the messages that were reported, up to the first that was cut off.
-/
namespace Gallows.Frame

open Wire (Message)

variable {α : Type} [Message α] {sink : Sink} {m : α} {body part : List UInt8}

/-- The outcomes of writing messages one after another, each beside its message. -/
abbrev Reports (α : Type) := List (α × Except ProtocolError Unit)

variable {reports before after : Reports α} {parts : List (List UInt8)}

/-! Writing. -/

/-- Whether `part` is what is written of a message with this outcome: the whole frame if it
succeeds, less than that if the stream fails, and nothing if the message is refused. There are no
other outcomes. -/
def Accounts (m : α) (part : List UInt8) : Except ProtocolError Unit → Prop
  | .ok () => (Message.encode m).size ≤ sizeLimit ∧ part = frame (Message.encode m).data.toList
  | .error (.transport _) => (Message.encode m).size ≤ sizeLimit ∧
      part <+: frame (Message.encode m).data.toList ∧
      part ≠ frame (Message.encode m).data.toList
  | .error (.frame (.tooLarge _ _)) => sizeLimit < (Message.encode m).size ∧ part = []
  | .error _ => False

/-- Whether `parts` are what is written of the messages, one after another. -/
abbrev AccountFor (reports : Reports α) (parts : List (List UInt8)) : Prop :=
  List.Forall₂ (fun report part => Accounts report.1 part report.2) reports parts

theorem write_accounts (m : α) (sink : Sink) :
    ∃ part, (write m sink).2.written.data.toList = sink.written.data.toList ++ part ∧
      Accounts m part (write m sink).1 := by
  by_cases hl : sizeLimit < (Message.encode m).size
  · refine ⟨[], ?_⟩
    rw [write_of_large hl, List.append_nil]
    exact ⟨rfl, hl, rfl⟩
  · have hl : (Message.encode m).size ≤ sizeLimit := Nat.le_of_not_lt hl
    obtain ⟨bytes, hencode, hbytes⟩ := encode_eq_ok hl
    obtain ⟨part, hpre, hw, hall⟩ := Sink.write_written sink bytes
    rw [hbytes] at hpre hall
    refine ⟨part, ?_⟩
    simp only [write, hencode]
    refine ⟨hw, ?_⟩
    cases hr : (sink.write bytes).1 with
    | ok done => exact ⟨hl, hall.mp hr⟩
    | error fault =>
      refine ⟨hl, hpre, ?_⟩
      intro he
      have hok := hall.mpr he
      rw [hr] at hok
      cases hok

theorem writeAll_accounts (ms : List α) (sink : Sink) :
    (writeAll ms sink).1.length = ms.length ∧ ∃ parts,
      (writeAll ms sink).2.written.data.toList = sink.written.data.toList ++ parts.flatten ∧
      AccountFor (ms.zip (writeAll ms sink).1) parts := by
  induction ms generalizing sink with
  | nil => exact ⟨rfl, [], by simp [writeAll], .nil⟩
  | cons m ms ih =>
    obtain ⟨part, hw, hpart⟩ := write_accounts m sink
    obtain ⟨hlen, parts, hrest, hparts⟩ := ih (write m sink).2
    refine ⟨by simp [writeAll, hlen], part :: parts, ?_, .cons hpart hparts⟩
    simp only [writeAll, hrest, hw, List.flatten_cons, List.append_assoc]

/-! What the reports say of the bytes. -/

/-- Whether the stream did not fail. -/
def IsIntact (reports : Reports α) : Prop :=
  ∀ report ∈ reports, ∀ fault, report.2 ≠ .error (.transport fault)

/-- Whether all messages were refused. -/
def IsRefused (reports : Reports α) : Prop :=
  ∀ report ∈ reports, ∃ size limit, report.2 = .error (.frame (.tooLarge size limit))

/-- The messages that are reported as written before the stream fails. -/
def reported : Reports α → List α
  | [] => []
  | (m, .ok ()) :: reports => m :: reported reports
  | (_, .error (.transport _)) :: _ => []
  | (_, .error _) :: reports => reported reports

/-- The frames of messages. -/
def frames (ms : List α) : List UInt8 :=
  (ms.map fun m => frame (Message.encode m).data.toList).flatten

theorem size_of_mem_reported (h : AccountFor reports parts) :
    ∀ m ∈ reported reports, (Message.encode m).size ≤ sizeLimit := by
  induction h with
  | nil => exact List.forall_mem_nil _
  | @cons report part reports parts hpart _ ih =>
    match report, hpart with
    | (m, .ok ()), hpart => exact List.forall_mem_cons.mpr ⟨hpart.1, ih⟩
    | (m, .error (.transport fault)), _ => exact List.forall_mem_nil _
    | (m, .error (.frame (.tooLarge _ _))), _ => exact ih

/-- What is written starts with the frames of the messages that are reported, and is no more than
that unless the stream fails. -/
theorem flatten_eq (h : AccountFor reports parts) :
    ∃ rest, parts.flatten = frames (reported reports) ++ rest ∧ (IsIntact reports → rest = []) := by
  induction h with
  | nil => exact ⟨[], rfl, fun _ => rfl⟩
  | @cons report part reports parts hpart _ ih =>
    obtain ⟨rest, hrest, hnil⟩ := ih
    match report, hpart with
    | (m, .ok ()), hpart =>
      refine ⟨rest, ?_, fun hi => hnil (List.forall_mem_cons.mp hi).2⟩
      simp only [reported, frames, List.map_cons, List.flatten_cons, List.append_assoc, hpart.2,
        hrest]
    | (m, .error (.transport fault)), _ =>
      refine ⟨(part :: parts).flatten, rfl, ?_⟩
      intro hi
      exact absurd rfl ((List.forall_mem_cons.mp hi).1 fault)
    | (m, .error (.frame (.tooLarge _ _))), hpart =>
      refine ⟨rest, ?_, fun hi => hnil (List.forall_mem_cons.mp hi).2⟩
      simp only [reported, List.flatten_cons, hpart.2, List.nil_append, hrest]

theorem flatten_of_refused (h : AccountFor reports parts) (hr : IsRefused reports) :
    parts.flatten = [] := by
  induction h with
  | nil => rfl
  | @cons report part reports parts hpart _ ih =>
    obtain ⟨⟨size, limit, hreport⟩, hr⟩ := List.forall_mem_cons.mp hr
    rw [hreport] at hpart
    rw [List.flatten_cons, hpart.2, ih hr]
    rfl

omit [Message α] in
theorem reported_of_failed {fault : Fault} :
    reported (before ++ (m, .error (.transport fault)) :: after) = reported before := by
  induction before with
  | nil => rfl
  | cons report before ih =>
    match report with
    | (_, .ok ()) => simp only [List.cons_append, reported, ih]
    | (_, .error e) =>
      cases e with
      | transport => rfl
      | _ => exact ih

/-- Up to a last write that fails, what is written is the frames of the messages that are reported,
and the part of a frame with which it fails. -/
theorem flatten_of_failed {fault : Fault} (hb : IsIntact before) (ha : IsRefused after)
    (h : AccountFor (before ++ (m, .error (.transport fault)) :: after) parts) :
    ∃ part, parts[before.length]? = some part ∧ Accounts m part (.error (.transport fault)) ∧
      parts.flatten = frames (reported before) ++ part := by
  induction before generalizing parts with
  | nil =>
    cases h with
    | @cons _ part _ parts hpart hparts =>
      refine ⟨part, rfl, hpart, ?_⟩
      rw [List.flatten_cons, flatten_of_refused hparts ha, List.append_nil]
      rfl
  | cons report before ih =>
    obtain ⟨hreport, hb⟩ := List.forall_mem_cons.mp hb
    cases h with
    | @cons _ first _ parts hfirst hparts =>
      obtain ⟨part, hget, hpart, hflat⟩ := ih hb hparts
      refine ⟨part, hget, hpart, ?_⟩
      match report, hfirst, hreport with
      | (m, .ok ()), hfirst, _ =>
        simp only [reported, frames, List.map_cons, List.flatten_cons, List.append_assoc, hfirst.2,
          hflat]
      | (m, .error (.transport fault)), _, hreport => exact absurd rfl (hreport fault)
      | (m, .error (.frame (.tooLarge _ _))), hfirst, _ =>
        simp only [reported, List.flatten_cons, hfirst.2, List.nil_append, hflat]

/-! Reading. -/

theorem pending_of_prefix (hl : body.length ≤ sizeLimit) (hp : part <+: frame body)
    (hne : part ≠ frame body) : Pending part := by
  obtain ⟨rest, hrest⟩ := hp
  have hlen := congrArg List.length hrest
  rw [List.length_append, length_frame] at hlen
  by_cases hh : part.length < headerSize
  · exact Or.inl hh
  · have htake : part.take headerSize = (header body.length).data.toList := by
      rw [← take_header_append (Nat.le_of_not_lt hh) rest, hrest]
      simpa using take_frame body []
    have hpos : 0 < rest.length := by
      apply List.length_pos_of_ne_nil
      rintro rfl
      exact hne (by simpa using hrest)
    rw [Pending, htake, spelled_header hl]
    omega

namespace Reader

/-- The end of the stream within a frame is an error, and nothing is read from then on. -/
theorem read_cut {r : Reader} (h : r.assembler.Holds []) (hp : Pending part) (hn : part ≠ [])
    (hs : r.source.Gives part) :
    ∃ r' : Reader, (r.read : Except ProtocolError (Option α) × Reader) =
        (.error (.frame (.closed (lastPart part).1 (lastPart part).2)), r') ∧
      r'.assembler.Holds [] ∧ r'.source.Gives [] := by
  have hreads := readBodyWithin_reads h (Nat.lt_succ_self r.source.weight)
  rw [Source.Gives] at hs
  rw [read]
  generalize readBodyWithin (r.source.weight + 1) r = result at hreads ⊢
  obtain ⟨body?, r'⟩ := result
  cases hreads with
  | frame new hm body hb hl ha =>
    obtain ⟨rest, -, rfl⟩ := Source.bytes_of_append (hs.symm.trans hm)
    obtain rfl : new = Frame.frame body.data.toList := hb
    exact absurd hp (not_pending_frame hl rest)
  | tooLarge new hm ho ha =>
    obtain ⟨rest, -, rfl⟩ := Source.bytes_of_append (hs.symm.trans hm)
    exact absurd hp (not_pending_oversized ho rest)
  | exhausted hh hm ha =>
    rcases hm with ⟨hm, -⟩ | hm
    · exact absurd (List.map_eq_nil_iff.mp (hs.symm.trans hm)) hn
    · have hm : r.source.marks = ([] : List UInt8).map .byte ++ .ended :: r'.source.marks := hm
      obtain ⟨b, hb⟩ := Source.byte_of_append (hs.symm.trans hm)
      cases hb
  | cut new hm hp hh ha =>
    rcases hm with ⟨hm, hend⟩ | hm
    · obtain rfl := List.map_injective_iff.mpr Source.byte_injective (hs.symm.trans hm)
      exact ⟨r', rfl, ha, hend⟩
    · obtain ⟨b, hb⟩ := Source.byte_of_append (hs.symm.trans hm)
      cases hb
  | failed new fault hm ha =>
    obtain ⟨b, hb⟩ := Source.byte_of_append (hs.symm.trans hm)
    cases hb

/-- What a reader is told at the end of a stream behind a part of a frame. -/
def ending (part : List UInt8) : Except ProtocolError (Option α) :=
  if part = [] then .ok none
  else .error (.frame (.closed (lastPart part).1 (lastPart part).2))

theorem readTimes_ending {r : Reader} (h : r.assembler.Holds []) (hp : Pending part)
    (hs : r.source.Gives part) (later : Nat) :
    (r.readTimes α (1 + later)).1 = ending part :: List.replicate later (.ok none) := by
  rw [Nat.add_comm]
  by_cases hn : part = []
  · rw [ending, if_pos hn, readTimes_end h (hn ▸ hs), List.replicate_succ]
  · obtain ⟨r', hread, ha, hend⟩ := read_cut (α := α) h hp hn hs
    rw [ending, if_neg hn]
    simp only [readTimes, hread, readTimes_end ha hend]

end Reader

open Envelope (Sender)

/-- Whatever the stream takes and however it fails, what is written of envelopes one after another
is a part for each: the whole frame of one that is reported as written, less than that of one whose
write fails, and nothing of one that is refused. However what was written is cut into reads, reading
gives the envelopes that are reported up to the first failure; then, if none failed, or if nothing
was written behind the failure, the end of the stream: between frames if nothing of a frame was
written with the failure, and within that frame otherwise. -/
theorem readTimes_reported (sender : Sender) (es : List sender.Sent) (sink : Sink) :
    let run := writeAll es sink
    let reports := es.zip run.1
    run.1.length = es.length ∧ ∃ parts : List (List UInt8),
      AccountFor reports parts ∧
      run.2.written.data.toList = sink.written.data.toList ++ parts.flatten ∧
      ∀ source : Source, source.Gives parts.flatten →
        let read n := (Reader.readTimes sender.Sent n ⟨source, {}⟩).1
        read (reported reports).length = (reported reports).map (fun e => .ok (some e)) ∧
        (IsIntact reports → ∀ later, read ((reported reports).length + later) =
          (reported reports).map (fun e => .ok (some e)) ++ List.replicate later (.ok none)) ∧
        ∀ before e fault after, reports = before ++ (e, .error (.transport fault)) :: after →
          IsIntact before → IsRefused after → ∃ part, parts[before.length]? = some part ∧
            ∀ later, read ((reported reports).length + (1 + later)) =
              (reported reports).map (fun e => .ok (some e)) ++
                Reader.ending part :: List.replicate later (.ok none) := by
  intro run reports
  obtain ⟨hlen, parts, hw, hparts⟩ :
      run.1.length = es.length ∧ ∃ parts,
        run.2.written.data.toList = sink.written.data.toList ++ parts.flatten ∧
        AccountFor reports parts := writeAll_accounts es sink
  refine ⟨hlen, parts, hparts, hw, ?_⟩
  intro source hs read
  have hsize := size_of_mem_reported hparts
  have hdecode : ∀ e ∈ reported reports, Wire.decode (Message.encode e) = .ok e := by
    intro e he
    have hfits := hsize e he
    have hlimit : sizeLimit = 16777216 := rfl
    exact sender.decode_encode e (by omega)
  have hread (rest : List UInt8) (hflat : parts.flatten = frames (reported reports) ++ rest) :
      ∃ r : Reader, r.assembler.Holds [] ∧ r.source.Gives rest ∧ ∀ later,
        read ((reported reports).length + later) =
          (reported reports).map (fun e => .ok (some e)) ++ (r.readTimes sender.Sent later).1 := by
    rw [hflat] at hs
    exact Reader.readTimes_frames_append (r := ⟨source, {}⟩) Assembler.holds_initial hsize hdecode
      hs
  obtain ⟨rest, hflat, hintact⟩ := flatten_eq hparts
  refine ⟨?_, ?_, ?_⟩
  · obtain ⟨r, -, -, htimes⟩ := hread rest hflat
    exact (htimes 0).trans (List.append_nil _)
  · intro hi later
    obtain ⟨r, hr, hend, htimes⟩ := hread rest hflat
    rw [hintact hi] at hend
    rw [htimes later, Reader.readTimes_end hr hend]
  · intro before e fault after hreports hb ha
    obtain ⟨part, hget, ⟨hfits, hpre, hne⟩, hcut⟩ := flatten_of_failed hb ha (hreports ▸ hparts)
    have hpending : Pending part := pending_of_prefix (by simpa using hfits) hpre hne
    have hsame : reported reports = reported before := by rw [hreports, reported_of_failed]
    obtain ⟨r, hr, hend, htimes⟩ := hread part (by rw [hcut, hsame])
    refine ⟨part, hget, ?_⟩
    intro later
    rw [htimes (1 + later), Reader.readTimes_ending hr hpending hend]

/-- A write that fails within the second header. -/
example :
    let broken : Fault := .ofSystem .brokenPipe
    let run := writeAll [({ status := 5 } : Envelope.Server), { status := 7 }]
      { script := [.takes 3, .fails ⟨.interrupted, ""⟩, .takes 90, .takes 2, .fails broken] }
    run.1 = [.ok (), .error (.transport broken)] ∧
      (Reader.readTimes Envelope.Server 3 ⟨.ofBytes run.2.written, {}⟩).1 =
        [.ok (some { status := 5 }), .error (.frame (.closed 4 2)), .ok none] := by
  cbv

end Gallows.Frame
