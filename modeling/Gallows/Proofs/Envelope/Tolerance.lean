import Gallows.Proofs.Envelope.Layout
import Gallows.Proofs.Wire.Grammar

/-!
Envelopes as anyone may write them: with fields in any order and more than once, with integers
longer than they have to be, and with fields that the envelope does not know. The last value of a
field counts. A field that breaks off, has another layout than the declared one, or is no text
spoils the whole.
-/
namespace Gallows.Envelope.Sender

open Wire

variable {sender : Sender} {f : Field} {fields : List Field} {bytes key value : List UInt8}

/-- The layout with which a field is declared. -/
def declared? : Sender → (number : Nat) → Option WireType
  | client, 1 | client, 2 => some .lengthDelimited
  | server, 1 => some .varint
  | server, 2 | server, 3 => some .lengthDelimited
  | _, _ => none

/-- The field that is a text. -/
def textNumber : Sender → Nat
  | client => 1
  | server => 2

/-- Whether a field is one that an envelope takes in: one that it knows in the declared layout and,
if it is a text, in UTF-8, or one that it does not know. -/
structure Admits (sender : Sender) (f : Field) : Prop where
  layout : ∀ t, sender.declared? f.1 = some t → f.2.wireType = t
  text : ∀ bytes, f = (sender.textNumber, .chunk bytes) → bytes.toByteArray.IsValidUTF8

/-- The integer of a field with this number. -/
def integer? (number : Nat) : Field → Option Nat
  | (n, .varint value) => if n = number then some value else none
  | _ => none

/-- The bytes of a field with this number. -/
def chunk? (number : Nat) : Field → Option (List UInt8)
  | (n, .chunk bytes) => if n = number then some bytes else none
  | _ => none

/-- The last integer with this number, or zero. -/
def lastInteger (number : Nat) (fields : List Field) : Nat :=
  (fields.filterMap (integer? number)).getLast?.getD 0

/-- The last bytes with this number, or none. -/
def lastChunk (number : Nat) (fields : List Field) : List UInt8 :=
  (fields.filterMap (chunk? number)).getLast?.getD []

/-- The low 32 bits of an integer, with a sign. -/
def signed (n : Nat) : Int := (n : Int).bmod (2 ^ 32)

/-- Whether an envelope has the last value of each field. -/
def Tells : (sender : Sender) → List Field → sender.Sent → Prop
  | client, fields, (e : Client) =>
    e.command.toUTF8.data.toList = lastChunk 1 fields ∧
      e.payload.data.toList = lastChunk 2 fields
  | server, fields, (e : Server) =>
    e.status.toInt = signed (lastInteger 1 fields) ∧
      e.message.toUTF8.data.toList = lastChunk 2 fields ∧
      e.payload.data.toList = lastChunk 3 fields

/-- What no envelope goes on with. -/
inductive Broken (sender : Sender) : List UInt8 → Prop
  /-- A field that ends too soon. -/
  | cut {f : Field} {part rest : List UInt8} (h : Laid depthLimit [f] (part ++ rest))
      (ha : sender.Admits f) (hp : part ≠ []) (hr : rest ≠ []) : Broken sender part
  /-- A field in another layout than the declared one, and anything behind its key. -/
  | mismatched {k : Key} {key : List UInt8} {t : WireType} (hk : k.Written key)
      (ht : sender.declared? k.number = some t) (hne : k.wireType ≠ t) (rest : List UInt8) :
      Broken sender (key ++ rest)
  /-- A text that is not UTF-8, and anything behind it. -/
  | illEncoded {key size text : List UInt8}
      (hk : Key.Written ⟨sender.textNumber, .lengthDelimited⟩ key)
      (hs : Integer text.length size) (ht : ¬ text.toByteArray.IsValidUTF8) (rest : List UInt8) :
      Broken sender (key ++ (size ++ (text ++ rest)))

/-- The text in UTF-8, if it is one. -/
def textOf (bytes : List UInt8) : String := (String.fromUTF8? bytes.toByteArray).getD ""

/-- What a client sends, once it has taken in a field. -/
def putClient (e : Client) : Field → Client
  | (1, .chunk bytes) => { e with command := textOf bytes }
  | (2, .chunk bytes) => { e with payload := bytes.toByteArray }
  | _ => e

/-- What a server sends, once it has taken in a field. -/
def putServer (e : Server) : Field → Server
  | (1, .varint n) => { e with status := n.toUInt32.toInt32 }
  | (2, .chunk bytes) => { e with message := textOf bytes }
  | (3, .chunk bytes) => { e with payload := bytes.toByteArray }
  | _ => e

/-- An envelope that has taken in a field. -/
def put : (sender : Sender) → sender.Sent → Field → sender.Sent
  | client => putClient
  | server => putServer

theorem toUTF8_textOf (h : bytes.toByteArray.IsValidUTF8) :
    (textOf bytes).toUTF8.data.toList = bytes := by
  have htext : String.fromUTF8? bytes.toByteArray = some (.fromUTF8 _ h) := dif_pos h
  rw [textOf, htext]
  change bytes.toByteArray.data.toList = bytes
  simp

theorem toInt_toInt32 (n : Nat) : n.toUInt32.toInt32.toInt = signed n := by
  change (BitVec.ofNat 32 n).toInt = _
  exact BitVec.toInt_ofNat' n

theorem chunk_of_laid {depth number : Nat} {v : Value} (h : Value.Laid depth number v value)
    (hv : v.wireType = .lengthDelimited) :
    ∃ bytes size, v = .chunk bytes ∧ value = size ++ bytes ∧ Integer bytes.length size := by
  cases h with
  | chunk h => exact ⟨_, _, rfl, rfl, h⟩
  | varint | fixed64 | fixed32 | group => cases hv

theorem varint_of_laid {depth number : Nat} {v : Value} (h : Value.Laid depth number v value)
    (hv : v.wireType = .varint) : ∃ n, v = .varint n ∧ Integer n value := by
  cases h with
  | varint h => exact ⟨_, rfl, h⟩
  | chunk | fixed64 | fixed32 | group => cases hv

theorem reads_chunk {size bytes : List UInt8} {number : Nat} (hs : Integer bytes.length size)
    (c : Cursor) (t : List UInt8) (hc : c.rest = size ++ bytes ++ t) :
    ∃ d, readBytes ⟨number, .lengthDelimited⟩ c = .ok (bytes.toByteArray, d) ∧ d.rest = t := by
  rw [List.append_assoc] at hc
  obtain ⟨d, hd, ht⟩ := readChunk_integer hs hc
  exact ⟨d, by simp [readBytes, expect, hd, bind, Except.bind], ht⟩

theorem reads_text {size bytes : List UInt8} {number : Nat} (hs : Integer bytes.length size)
    (h : bytes.toByteArray.IsValidUTF8) (c : Cursor) (t : List UInt8)
    (hc : c.rest = size ++ bytes ++ t) :
    ∃ d, readText ⟨number, .lengthDelimited⟩ c = .ok (textOf bytes, d) ∧ d.rest = t := by
  rw [List.append_assoc] at hc
  obtain ⟨d, hd, ht⟩ := readChunk_integer hs hc
  have htext : String.fromUTF8? bytes.toByteArray = some (textOf bytes) := by
    rw [textOf]
    simp [String.fromUTF8?, h]
  exact ⟨d, by simp [readText, expect, hd, htext, bind, Except.bind], ht⟩

theorem reads_int32 {n number : Nat} (hn : Integer n value) (c : Cursor) (t : List UInt8)
    (hc : c.rest = value ++ t) :
    ∃ d, readInt32 ⟨number, .varint⟩ c = .ok (n.toUInt32.toInt32, d) ∧ d.rest = t := by
  obtain ⟨d, hd, ht⟩ := hn.read hc
  exact ⟨d, by simp [readInt32, expect, hd, bind, Except.bind, pure, Except.pure], ht⟩

/-- An envelope takes in a field that it admits. -/
theorem merges_put (e : sender.Sent) (hkey : f.key.Written key)
    (hvalue : Value.Laid depthLimit f.1 f.2 value) (ha : sender.Admits f) :
    Merges e (key ++ value) (sender.put e f) := by
  obtain ⟨number, v⟩ := f
  cases sender with
  | client =>
    match number with
    | 1 =>
      obtain ⟨bytes, size, rfl, rfl, hs⟩ := chunk_of_laid hvalue (ha.layout _ rfl)
      exact merges_known (fun text => { (e : Client) with command := text })
        (fun c t hc => hkey.read hc) rfl (reads_text hs (ha.text bytes rfl))
    | 2 =>
      obtain ⟨bytes, size, rfl, rfl, hs⟩ := chunk_of_laid hvalue (ha.layout _ rfl)
      exact merges_known (fun payload => { (e : Client) with payload })
        (fun c t hc => hkey.read hc) rfl (reads_chunk hs)
    | 0 => exact merges_unknown hkey hvalue rfl
    | number + 3 => exact merges_unknown hkey hvalue rfl
  | server =>
    match number with
    | 1 =>
      obtain ⟨n, rfl, hn⟩ := varint_of_laid hvalue (ha.layout _ rfl)
      exact merges_known (fun status => { (e : Server) with status })
        (fun c t hc => hkey.read hc) rfl (reads_int32 hn)
    | 2 =>
      obtain ⟨bytes, size, rfl, rfl, hs⟩ := chunk_of_laid hvalue (ha.layout _ rfl)
      exact merges_known (fun message => { (e : Server) with message })
        (fun c t hc => hkey.read hc) rfl (reads_text hs (ha.text bytes rfl))
    | 3 =>
      obtain ⟨bytes, size, rfl, rfl, hs⟩ := chunk_of_laid hvalue (ha.layout _ rfl)
      exact merges_known (fun payload => { (e : Server) with payload })
        (fun c t hc => hkey.read hc) rfl (reads_chunk hs)
    | 0 => exact merges_unknown hkey hvalue rfl
    | number + 4 => exact merges_unknown hkey hvalue rfl

/-- An envelope takes in fields that it admits one after another. -/
theorem absorbs_laid (h : Laid depthLimit fields bytes) (ha : ∀ f ∈ fields, sender.Admits f)
    (e : sender.Sent) : Absorbs e bytes (fields.foldl sender.put e) := by
  induction fields generalizing bytes e with
  | nil =>
    cases h
    exact absorbs_nil e
  | cons f fields ih =>
    obtain _ | ⟨hkey, hvalue, hrest⟩ := h
    obtain ⟨hf, hfields⟩ := List.forall_mem_cons.mp ha
    rw [← List.append_assoc]
    exact ((merges_put e hkey hvalue hf).absorbs
      (List.append_ne_nil_of_left_ne_nil hkey.ne_nil _)).append (ih hrest hfields _)

theorem integer?_of_ne {number : Nat} (h : ∀ n, f = (number, .varint n) → False) :
    integer? number f = none := by
  obtain ⟨k, v⟩ := f
  cases v with
  | varint n => exact if_neg fun hk => h n (by rw [hk])
  | fixed64 | chunk | group | fixed32 => rfl

theorem chunk?_of_ne {number : Nat} (h : ∀ bytes, f = (number, .chunk bytes) → False) :
    chunk? number f = none := by
  obtain ⟨k, v⟩ := f
  cases v with
  | chunk bytes => exact if_neg fun hk => h bytes (by rw [hk])
  | varint | fixed64 | group | fixed32 => rfl

/-! Each field sets the part with its number and leaves the others. -/

theorem putClient_command (ha : client.Admits f) (e : Client) :
    (putClient e f).command.toUTF8.data.toList =
      (chunk? 1 f).getD e.command.toUTF8.data.toList := by
  unfold putClient
  split
  · rename_i bytes
    exact toUTF8_textOf (ha.text bytes rfl)
  · rfl
  · rename_i h _
    rw [chunk?_of_ne h]
    rfl

theorem putClient_payload (e : Client) :
    (putClient e f).payload.data.toList = (chunk? 2 f).getD e.payload.data.toList := by
  unfold putClient
  split
  · rfl
  · simp [chunk?]
  · rename_i h
    rw [chunk?_of_ne h]
    rfl

theorem putServer_status (e : Server) :
    (putServer e f).status.toInt = ((integer? 1 f).map signed).getD e.status.toInt := by
  unfold putServer
  split
  · rw [integer?, if_pos rfl, Option.map_some, Option.getD_some, toInt_toInt32]
  · rfl
  · rfl
  · rename_i h _ _
    rw [integer?_of_ne h]
    rfl

theorem putServer_message (ha : server.Admits f) (e : Server) :
    (putServer e f).message.toUTF8.data.toList =
      (chunk? 2 f).getD e.message.toUTF8.data.toList := by
  unfold putServer
  split
  · rfl
  · rename_i bytes
    exact toUTF8_textOf (ha.text bytes rfl)
  · rfl
  · rename_i h _
    rw [chunk?_of_ne h]
    rfl

theorem putServer_payload (e : Server) :
    (putServer e f).payload.data.toList = (chunk? 3 f).getD e.payload.data.toList := by
  unfold putServer
  split
  · rfl
  · rfl
  · simp [chunk?]
  · rename_i h
    rw [chunk?_of_ne h]
    rfl

/-- Where each field either sets a part or leaves it, the last one that sets it counts. -/
theorem get_foldl {α β γ : Type} (step : α → Field → α) (get : α → γ) (read : Field → Option β)
    (see : β → γ) (h : ∀ f ∈ fields, ∀ e, get (step e f) = ((read f).map see).getD (get e))
    (e : α) :
    get (fields.foldl step e) = ((fields.filterMap read).getLast?.map see).getD (get e) := by
  induction fields generalizing e with
  | nil => rfl
  | cons f fields ih =>
    obtain ⟨hf, hfields⟩ := List.forall_mem_cons.mp h
    rw [List.foldl_cons, ih hfields, hf e, List.filterMap_cons]
    cases read f with
    | none => rfl
    | some x =>
      simp only [List.getLast?_cons]
      cases (fields.filterMap read).getLast? <;> rfl

theorem get_foldl_chunk {α : Type} {step : α → Field → α} (get : α → List UInt8) (number : Nat)
    {e : α} (h : ∀ f ∈ fields, ∀ e, get (step e f) = (chunk? number f).getD (get e))
    (hempty : get e = []) : get (fields.foldl step e) = lastChunk number fields := by
  rw [get_foldl step get (chunk? number) id (by simpa using h), hempty, Option.map_id]
  rfl

/-- An envelope has the last value of each field that it has taken in. -/
theorem tells_foldl (ha : ∀ f ∈ fields, sender.Admits f) :
    sender.Tells fields (fields.foldl sender.put Message.empty) := by
  cases sender with
  | client =>
    constructor
    · exact get_foldl_chunk (fun e : Client => e.command.toUTF8.data.toList) 1
        (fun f hf e => putClient_command (ha f hf) e) rfl
    · exact get_foldl_chunk (fun e : Client => e.payload.data.toList) 2
        (fun f _ e => putClient_payload e) rfl
  | server =>
    refine ⟨?_, ?_, ?_⟩
    · have hlast := get_foldl putServer (fun e => e.status.toInt) (integer? 1) signed
        (fun f (_ : f ∈ fields) e => putServer_status e) Message.empty
      refine hlast.trans ?_
      have hzero : (Message.empty : Server).status.toInt = signed 0 := by decide
      rw [lastInteger, hzero, Option.getD_map]
    · exact get_foldl_chunk (fun e : Server => e.message.toUTF8.data.toList) 2
        (fun f hf e => putServer_message (ha f hf) e) rfl
    · exact get_foldl_chunk (fun e : Server => e.payload.data.toList) 3
        (fun f _ e => putServer_payload e) rfl

theorem length_lt_of_laid {number : Nat} {chunk : List UInt8} {depth : Nat}
    (h : Laid depth fields bytes) (hf : (number, .chunk chunk) ∈ fields) :
    chunk.length < 2 ^ 64 := by
  induction fields generalizing bytes with
  | nil => cases hf
  | cons f fields ih =>
    obtain _ | ⟨hkey, hvalue, hrest⟩ := h
    obtain rfl | hf := List.mem_cons.mp hf
    · obtain ⟨_, _, heq, -, hs⟩ := chunk_of_laid hvalue rfl
      cases heq
      exact hs.lt
    · exact ih hrest hf

theorem length_lastChunk_lt (h : Laid depthLimit fields bytes) (number : Nat) :
    (lastChunk number fields).length < 2 ^ 64 := by
  rw [lastChunk]
  cases hl : (fields.filterMap (chunk? number)).getLast? with
  | none => decide
  | some chunk =>
    obtain ⟨⟨k, v⟩, hf, hchunk⟩ := List.mem_filterMap.mp (List.mem_of_getLast? hl)
    cases v with
    | chunk bytes =>
      rw [chunk?] at hchunk
      split at hchunk
      · cases hchunk
        exact length_lt_of_laid h hf
      · cases hchunk
    | varint | fixed64 | group | fixed32 => cases hchunk

/-- Each part of an envelope has a length of 64 bits if it has been read. -/
theorem Tells.fits {e : sender.Sent} (he : sender.Tells fields e)
    (h : Laid depthLimit fields bytes) : sender.Fits e := by
  cases sender with
  | client =>
    obtain ⟨hcommand, hpayload⟩ := he
    constructor
    · rw [← ByteArray.size_data, ← Array.length_toList, hcommand]
      exact length_lastChunk_lt h 1
    · rw [← ByteArray.size_data, ← Array.length_toList, hpayload]
      exact length_lastChunk_lt h 2
  | server =>
    obtain ⟨-, hmessage, hpayload⟩ := he
    constructor
    · rw [← ByteArray.size_data, ← Array.length_toList, hmessage]
      exact length_lastChunk_lt h 2
    · rw [← ByteArray.size_data, ← Array.length_toList, hpayload]
      exact length_lastChunk_lt h 3

/-! What spoils the whole. -/

theorem merge?_stable (e : sender.Sent) (k : Key)
    (merge : Cursor → Except Wire.Error (sender.Sent × Cursor))
    (h : Message.merge? e k = some merge) : Stable merge := by
  obtain ⟨number, wireType⟩ := k
  cases sender with
  | client =>
    match number with
    | 1 =>
      cases h
      exact merging_stable (readText_stable _) _ _ _
    | 2 =>
      cases h
      exact merging_stable (readBytes_stable _) _ _ _
    | 0 | number + 3 => cases h
  | server =>
    match number with
    | 1 =>
      cases h
      exact merging_stable (readInt32_stable _) _ _ _
    | 2 =>
      cases h
      exact merging_stable (readText_stable _) _ _ _
    | 3 =>
      cases h
      exact merging_stable (readBytes_stable _) _ _ _
    | 0 | number + 4 => cases h

/-- Whether no value is read from these bytes. -/
def Refuses {α : Type} (read : Read α) (bytes : List UInt8) : Prop :=
  ∀ c : Cursor, c.rest = bytes → ∃ cause, read c = .error cause

/-- A field of which no value is read is not taken in. -/
theorem mergeField_refused {β : Type} {e : sender.Sent} {c : Cursor} {k : Key} {rest : List UInt8}
    {message field : String} {read : Read β} (put : β → sender.Sent) (hk : k.Written key)
    (hc : c.rest = key ++ rest)
    (hm : Message.merge? e k = some (merging message field read put)) (hr : Refuses read rest) :
    ∃ error, mergeField e c = .error error := by
  obtain ⟨d, hd, ht⟩ := hk.read hc
  obtain ⟨cause, hcause⟩ := hr d ht
  refine ⟨{ field := some (message, field), cause }, ?_⟩
  simp only [mergeField, hd, hm, merging, hcause, inField, Except.mapError, bind, Except.bind]

theorem expect_bind_refuses {α : Type} {k : Key} {t : WireType} (read : Read α)
    (hne : k.wireType ≠ t) : Refuses (fun c => expect t k >>= fun _ => read c) bytes :=
  fun _ _ => ⟨_, by rw [expect, if_neg hne]; rfl⟩

theorem mergeField_mismatched (e : sender.Sent) {c : Cursor} {k : Key} {t : WireType}
    {rest : List UInt8} (hk : k.Written key) (ht : sender.declared? k.number = some t)
    (hne : k.wireType ≠ t) (hc : c.rest = key ++ rest) :
    ∃ error, mergeField e c = .error error := by
  obtain ⟨number, wireType⟩ := k
  cases sender with
  | client =>
    match number with
    | 1 | 2 =>
      cases ht
      exact mergeField_refused _ hk hc rfl (expect_bind_refuses _ hne)
    | 0 | number + 3 => cases ht
  | server =>
    match number with
    | 1 | 2 | 3 =>
      cases ht
      exact mergeField_refused _ hk hc rfl (expect_bind_refuses _ hne)
    | 0 | number + 4 => cases ht

theorem readText_refuses {size text rest : List UInt8} {number : Nat}
    (hs : Integer text.length size) (ht : ¬ text.toByteArray.IsValidUTF8) :
    Refuses (readText ⟨number, .lengthDelimited⟩) (size ++ (text ++ rest)) := by
  intro c hc
  obtain ⟨d, hd, -⟩ := readChunk_integer hs hc
  have hnone : String.fromUTF8? text.toByteArray = none := dif_neg ht
  exact ⟨.text, by simp only [readText, expect, if_true, hd, hnone, bind, Except.bind]⟩

/-- No envelope takes in what is broken. -/
theorem mergeField_broken (e : sender.Sent) {broken : List UInt8} (h : sender.Broken broken)
    {c : Cursor} (hc : c.rest = broken) : ∃ error, mergeField e c = .error error := by
  cases h with
  | @cut f _ rest h ha hp hr =>
    generalize hwhole : broken ++ rest = whole at h
    obtain _ | ⟨hkey, hvalue, hnil⟩ := h
    cases hnil
    have hput := merges_put e hkey hvalue ha
    rw [List.append_nil] at hwhole
    rw [← hwhole] at hput
    exact hput.cut (merge?_stable e) hr hc
  | mismatched hk ht hne rest => exact mergeField_mismatched e hk ht hne hc
  | illEncoded hk hs ht rest =>
    cases sender with
    | client => exact mergeField_refused _ hk hc rfl (readText_refuses hs ht)
    | server => exact mergeField_refused _ hk hc rfl (readText_refuses hs ht)

theorem Broken.ne_nil {broken : List UInt8} (h : sender.Broken broken) : broken ≠ [] := by
  cases h with
  | cut h ha hp hr => exact hp
  | mismatched hk ht hne rest => exact List.append_ne_nil_of_left_ne_nil hk.ne_nil _
  | illEncoded hk hs ht rest => exact List.append_ne_nil_of_left_ne_nil hk.ne_nil _

/-- The bytes of fields that an envelope admits read as an envelope with the last value of each, and
what is written of that envelope reads back as it. Bytes that go on with what is broken do not read
at all. -/
theorem decode_laid (sender : Sender) {fields : List Field} {bytes : ByteArray}
    (h : Laid depthLimit fields bytes.data.toList) (ha : ∀ f ∈ fields, sender.Admits f) :
    (∃ e : sender.Sent, decode bytes = .ok e ∧ sender.Tells fields e ∧
      decode (Message.encode e) = .ok e) ∧
    ∀ broken, sender.Broken broken → ∀ longer : ByteArray,
      longer.data.toList = bytes.data.toList ++ broken →
        ∃ error, (decode longer : Except Wire.Error sender.Sent) = .error error := by
  have habsorbs := absorbs_laid h ha (Message.empty : sender.Sent)
  have htells := tells_foldl ha
  constructor
  · exact ⟨_, habsorbs.decode, htells, decode_encode_of_fits sender _ (htells.fits h)⟩
  · intro broken hbroken longer hlonger
    exact habsorbs.decode_error hlonger hbroken.ne_nil fun c hc => mergeField_broken _ hbroken hc

/-- A group that is not known, a text, the status twice and spelled at length, and no document. A
status without a number at the end is too much. -/
theorem decode_laid_repeated_status :
    let bytes : ByteArray := ⟨#[59, 21, 1, 2, 3, 4, 75, 76, 60, 18, 2, 104, 105, 136, 0, 133, 128,
      0, 26, 0, 8, 255, 255, 255, 255, 255, 255, 255, 255, 255, 1]⟩
    (∃ e : Server, decode bytes = .ok e ∧ e.status = -1 ∧ e.message = "hi" ∧ e.payload = .empty ∧
      decode (Message.encode e) = .ok e) ∧
    ∃ error, (decode (bytes ++ ⟨#[8]⟩) : Except Wire.Error Server) = .error error := by
  intro bytes
  let inner : List Field := [(2, .fixed32 [1, 2, 3, 4]), (9, .group [])]
  let fields : List Field := [(7, .group inner), (2, .chunk [104, 105]), (1, .varint 5),
    (3, .chunk []), (1, .varint 18446744073709551615)]
  have small (b : UInt8) (h : b < 128) : Integer b.toNat [b] :=
    ⟨.last b h, Nat.le_of_ble_eq_true rfl, b.toNat_lt.trans (by decide)⟩
  have hstatus : Key.Written ⟨1, .varint⟩ [8] := ⟨by decide, by decide, small 8 (by decide)⟩
  have hlong : Integer 8 [136, 0] :=
    ⟨by exact .more 136 (by decide) (.last 0 (by decide)), by decide, by decide⟩
  have hfive : Integer 5 [133, 128, 0] :=
    ⟨by exact .more 133 (by decide) (.more 128 (by decide) (.last 0 (by decide))), by decide,
      by decide⟩
  have hones : Integer 18446744073709551615 [255, 255, 255, 255, 255, 255, 255, 255, 255, 1] := by
    have one {n : Nat} {bs : List UInt8} (h : Base128 n bs) : Base128 (127 + 128 * n) (255 :: bs) :=
      .more 255 (by decide) h
    exact ⟨one <| one <| one <| one <| one <| one <| one <| one <| one <| .last 1 (by decide),
      by decide, by decide⟩
  have hinner : Laid 99 inner _ :=
    .cons ⟨by decide, by decide, small 21 (by decide)⟩ (.fixed32 rfl) <|
      .cons ⟨by decide, by decide, small 75 (by decide)⟩
        (.group .nil ⟨by decide, by decide, small 76 (by decide)⟩) .nil
  have hlaid : Laid depthLimit fields _ :=
    .cons ⟨by decide, by decide, small 59 (by decide)⟩
        (.group hinner ⟨by decide, by decide, small 60 (by decide)⟩) <|
      .cons ⟨by decide, by decide, small 18 (by decide)⟩ (.chunk (small 2 (by decide))) <|
      .cons ⟨by decide, by decide, hlong⟩ (.varint hfive) <|
      .cons ⟨by decide, by decide, small 26 (by decide)⟩ (.chunk (small 0 (by decide))) <|
      .cons hstatus (.varint hones) .nil
  have hvarint (n : Nat) : server.Admits (1, .varint n) := ⟨by rintro t ⟨⟩; rfl, nofun⟩
  have htext : ([104, 105] : List UInt8).toByteArray.IsValidUTF8 := "hi".isValidUTF8
  have hadmits : ∀ f ∈ fields, server.Admits f := by
    simp only [fields, List.forall_mem_cons]
    refine ⟨⟨nofun, nofun⟩, ⟨?_, ?_⟩, hvarint 5, ⟨?_, nofun⟩, hvarint _, List.forall_mem_nil _⟩
    · rintro t ⟨⟩
      rfl
    · rintro text ⟨⟩
      exact htext
    · rintro t ⟨⟩
      rfl
  have hone : Laid depthLimit [(1, .varint 5)] _ :=
    .cons hstatus (.varint (small 5 (by decide))) .nil
  have hcut : server.Broken [8] :=
    .cut hone (hvarint 5) (List.cons_ne_nil _ _) (List.cons_ne_nil _ _)
  have hbytes : Laid depthLimit fields bytes.data.toList := hlaid
  obtain ⟨⟨e, hdecode, ⟨hs, hm, hp⟩, hagain⟩, hbroken⟩ :=
    decode_laid server hbytes hadmits
  have hmessage : e.message = "hi" :=
    String.toByteArray_inj.mp (ByteArray.ext (Array.toList_inj.mp hm))
  have hpayload : e.payload = .empty := ByteArray.ext (Array.toList_inj.mp hp)
  have hnegative : e.status = -1 := Int32.toInt_inj.mp (hs.trans (by decide))
  exact ⟨⟨e, hdecode, hnegative, hmessage, hpayload, hagain⟩, hbroken [8] hcut _ rfl⟩

end Gallows.Envelope.Sender
