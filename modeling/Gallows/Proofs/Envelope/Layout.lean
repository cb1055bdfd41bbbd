import Gallows.Proofs.Wire.RoundTrip

/-!
How envelopes are laid out: the fields in the order of their numbers, each behind a key of one byte,
without those that have nothing to say. What is laid out reads back as the same envelope.
-/
namespace Gallows

namespace Wire

/-- The bytes of a positive integer in base 128, the least significant first, each but the last with
its top bit set. -/
def groups (n : Nat) : List UInt8 :=
  ((Nat.digits 128 n).dropLast.map (· + 128) ++ (Nat.digits 128 n).getLast?.toList).map Nat.toUInt8

theorem varint_eq_groups {n : Nat} (h : n ≠ 0) : varint n = groups n := by
  induction n using Nat.strong_induction_on with
  | h n ih =>
    rw [varint]
    by_cases hsmall : n < 128
    · simp [hsmall, groups, Nat.digits_of_lt 128 n h hsmall]
    · have hhigh : n / 128 ≠ 0 := by omega
      have hdigits : Nat.digits 128 n = n % 128 :: Nat.digits 128 (n / 128) :=
        Nat.digits_def' (by decide) (Nat.pos_of_ne_zero h)
      have hmore : Nat.digits 128 (n / 128) ≠ [] := Nat.digits_ne_nil_iff_ne_zero.mpr hhigh
      rw [if_neg hsmall, ih (n / 128) (by omega) hhigh, groups, groups, hdigits]
      obtain ⟨d, ds, hds⟩ := List.exists_cons_of_ne_nil hmore
      simp [hds]

/-- An integer below `2 ^ 28` takes four bytes at most. -/
theorem length_groups_le {n : Nat} (h : n < 2 ^ 28) : (groups n).length ≤ 4 := by
  have hlen : (Nat.digits 128 n).length ≤ 4 := (Nat.digits_length_le_iff (by decide) n).mpr h
  rcases List.eq_nil_or_concat (Nat.digits 128 n) with hnil | ⟨ds, d, hds⟩
  · simp [groups, hnil]
  · rw [hds] at hlen
    simpa [groups, hds] using hlen

/-- The key of a field with a small number is one byte. -/
theorem Key.encode_of_small {k : Key} (h : 8 * k.number + k.wireType.code < 128) :
    k.encode = [(8 * k.number + k.wireType.code).toUInt8] := by
  rw [Key.encode, varint, if_pos h]

theorem size_le_writeBytes (number : Nat) (value : ByteArray) :
    value.size ≤ (writeBytes number value).size := by
  rw [writeBytes]
  split
  · omega
  · simp

end Wire

namespace Envelope
open Wire

/-- Who sends an envelope. -/
inductive Sender
  | client
  | server
deriving DecidableEq, Repr

namespace Sender

/-- The envelopes that are sent. -/
def Sent : Sender → Type
  | client => Client
  | server => Server

instance : (sender : Sender) → Message sender.Sent
  | client => inferInstanceAs (Message Client)
  | server => inferInstanceAs (Message Server)

/-- A field of bytes, which is left out when there are none. -/
def chunk (key : UInt8) (bytes : List UInt8) : List UInt8 :=
  if bytes = [] then [] else key :: groups bytes.length ++ bytes

/-- A field of a number, which is left out when it is zero. A negative number is written as its
remainder modulo 2^64. -/
def integer (key : UInt8) (value : Int32) : List UInt8 :=
  if value = 0 then [] else key :: groups (value.toInt % 2 ^ 64).toNat

/-- The fields of an envelope as they are laid out. -/
def layout : (sender : Sender) → sender.Sent → List UInt8
  | client, (e : Client) =>
    chunk 0x0a e.command.toUTF8.data.toList ++ chunk 0x12 e.payload.data.toList
  | server, (e : Server) =>
    integer 0x08 e.status ++ chunk 0x12 e.message.toUTF8.data.toList ++
      chunk 0x1a e.payload.data.toList

theorem writeBytes_eq_chunk (number : Nat) (h : number < 15) (value : ByteArray) :
    (writeBytes number value).data.toList =
      chunk (8 * number + 2).toUInt8 value.data.toList := by
  have hlen : value.data.toList.length = value.size := by simp
  have hk : Key.encode ⟨number, .lengthDelimited⟩ = [(8 * number + 2).toUInt8] :=
    Key.encode_of_small (by simp only [WireType.code]; omega)
  rw [writeBytes, chunk]
  by_cases hz : value.size = 0
  · have hnil : value.data.toList = [] := List.length_eq_zero_iff.mp (hlen.trans hz)
    rw [if_pos hz, if_pos hnil]
    rfl
  · have hne : value.data.toList ≠ [] := by
      intro hnil
      rw [hnil] at hlen
      exact hz hlen.symm
    rw [if_neg hz, if_neg hne, hlen, hk, varint_eq_groups hz]
    simp

/-- A field of bytes takes five bytes more at most. -/
theorem size_writeBytes_le (number : Nat) (h : number < 15) {value : ByteArray}
    (hsize : value.size < 2 ^ 28) : (writeBytes number value).size ≤ value.size + 5 := by
  have hlen : value.data.toList.length = value.size := by simp
  have hall : (writeBytes number value).size = (writeBytes number value).data.toList.length := by
    simp
  have hgroups := length_groups_le hsize
  rw [hall, writeBytes_eq_chunk number h, chunk]
  split
  · exact Nat.zero_le _
  · simp only [List.cons_append, List.length_cons, List.length_append, hlen]
    omega

theorem writeInt32_eq_integer (number : Nat) (h : number < 15) (value : Int32) :
    (writeInt32 number value).data.toList = integer (8 * number).toUInt8 value := by
  have hk : Key.encode ⟨number, .varint⟩ = [(8 * number).toUInt8] :=
    Key.encode_of_small (by simp only [WireType.code]; omega)
  rw [writeInt32, integer]
  by_cases hz : value = 0
  · rw [if_pos hz, if_pos hz]
    rfl
  · have hextended := extended_eq value
    have hnat : value.toInt64.toUInt64.toNat = (value.toInt % 2 ^ 64).toNat := by omega
    have hne : (value.toInt % 2 ^ 64).toNat ≠ 0 := by
      intro h0
      apply hz
      apply Int32.toInt_inj.mp
      have hlt := value.toInt_lt
      have hle := value.le_toInt
      change value.toInt = 0
      omega
    rw [if_neg hz, if_neg hz, hnat, hk, varint_eq_groups hne]
    simp

/-- What is written of an envelope is its layout. -/
theorem encode_eq_layout (sender : Sender) (e : sender.Sent) :
    (Message.encode e).data.toList = sender.layout e := by
  cases sender with
  | client =>
    have hcommand := writeBytes_eq_chunk 1 (by decide) e.command.toUTF8
    have hpayload := writeBytes_eq_chunk 2 (by decide) e.payload
    change (writeText 1 e.command ++ writeBytes 2 e.payload).data.toList = _
    rw [writeText, ByteArray.data_append, Array.toList_append, hcommand, hpayload]
    rfl
  | server =>
    have hstatus := writeInt32_eq_integer 1 (by decide) e.status
    have hmessage := writeBytes_eq_chunk 2 (by decide) e.message.toUTF8
    have hpayload := writeBytes_eq_chunk 3 (by decide) e.payload
    change (writeInt32 1 e.status ++ writeText 2 e.message ++
      writeBytes 3 e.payload).data.toList = _
    rw [writeText, ByteArray.data_append, ByteArray.data_append, Array.toList_append,
      Array.toList_append, hstatus, hmessage, hpayload]
    rfl

theorem size_client_le {e : Client} (hcommand : e.command.toUTF8.size < 2 ^ 28)
    (hpayload : e.payload.size < 2 ^ 28) :
    (Message.encode e).size ≤ e.command.toUTF8.size + e.payload.size + 10 := by
  have hfirst := size_writeBytes_le 1 (by decide) hcommand
  have hsecond := size_writeBytes_le 2 (by decide) hpayload
  change (writeText 1 e.command ++ writeBytes 2 e.payload).size ≤ _
  rw [ByteArray.size_append, writeText]
  omega

theorem size_payload_le (e : Client) : e.payload.size ≤ (Message.encode e).size := by
  have hpayload := size_le_writeBytes 2 e.payload
  change _ ≤ (writeText 1 e.command ++ writeBytes 2 e.payload).size
  rw [ByteArray.size_append]
  omega

/-- Whether the length of each part of an envelope fits into 64 bits. -/
def Fits : (sender : Sender) → sender.Sent → Prop
  | client, (e : Client) => e.command.toUTF8.size < 2 ^ 64 ∧ e.payload.size < 2 ^ 64
  | server, (e : Server) => e.message.toUTF8.size < 2 ^ 64 ∧ e.payload.size < 2 ^ 64

theorem decode_encode_of_fits (sender : Sender) (e : sender.Sent) (h : sender.Fits e) :
    decode (Message.encode e) = .ok e := by
  apply Absorbs.decode
  cases sender with
  | client =>
    have h₁ : Absorbs ({} : Client) (writeText 1 e.command).data.toList ⟨e.command, .empty⟩ :=
      absorbs_writeText (Client.mk · .empty) 1 e.command (by decide) (by decide) h.1 rfl rfl
    have h₂ : Absorbs (⟨e.command, .empty⟩ : Client) (writeBytes 2 e.payload).data.toList e :=
      absorbs_writeBytes (Client.mk e.command ·) 2 e.payload (by decide) (by decide) h.2 rfl rfl
    have hall := h₁.append h₂
    rw [← Array.toList_append, ← ByteArray.data_append] at hall
    exact hall
  | server =>
    have h₁ : Absorbs ({} : Server) (writeInt32 1 e.status).data.toList ⟨e.status, "", .empty⟩ :=
      absorbs_writeInt32 (Server.mk · "" .empty) 1 e.status (by decide) (by decide) rfl rfl
    have h₂ : Absorbs (⟨e.status, "", .empty⟩ : Server) (writeText 2 e.message).data.toList
        ⟨e.status, e.message, .empty⟩ :=
      absorbs_writeText (Server.mk e.status · .empty) 2 e.message (by decide) (by decide) h.1 rfl
        rfl
    have h₃ : Absorbs (⟨e.status, e.message, .empty⟩ : Server)
        (writeBytes 3 e.payload).data.toList e :=
      absorbs_writeBytes (Server.mk e.status e.message ·) 3 e.payload (by decide) (by decide) h.2
        rfl rfl
    have hall := (h₁.append h₂).append h₃
    rw [← Array.toList_append, ← Array.toList_append, ← ByteArray.data_append,
      ← ByteArray.data_append] at hall
    exact hall

/-- What is written of an envelope reads back as that envelope. -/
theorem decode_encode (sender : Sender) (e : sender.Sent) (h : (Message.encode e).size < 2 ^ 64) :
    decode (Message.encode e) = .ok e := by
  apply decode_encode_of_fits
  cases sender with
  | client =>
    have hsize : (writeText 1 e.command ++ writeBytes 2 e.payload).size < 2 ^ 64 := h
    have hcommand := size_le_writeBytes 1 e.command.toUTF8
    have hpayload := size_le_writeBytes 2 e.payload
    rw [ByteArray.size_append, writeText] at hsize
    exact ⟨by omega, by omega⟩
  | server =>
    have hsize : (writeInt32 1 e.status ++ writeText 2 e.message ++ writeBytes 3 e.payload).size <
      2 ^ 64 := h
    have hmessage := size_le_writeBytes 2 e.message.toUTF8
    have hpayload := size_le_writeBytes 3 e.payload
    rw [ByteArray.size_append, ByteArray.size_append, writeText] at hsize
    exact ⟨by omega, by omega⟩

end Sender
end Envelope
end Gallows
