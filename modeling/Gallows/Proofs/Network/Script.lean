import Gallows.Network.Connection
import Mathlib

/-!
What a server sends on a connection: the bytes of its script, until it ends or breaks off. They are
read in their order, whenever the script comes to them.
-/
namespace Gallows

variable {source : Source} {limit : Nat}

namespace Source

/-- Whether an item brings something: a byte or more, the end, or the news of a break. -/
def Item.Proper : Item → Prop
  | data bytes => 0 < bytes.remaining
  | ended => True
  | failed fault => fault = Connection.broken

/-- The bytes that a stream gives before it ends. -/
def bytes : Source → List UInt8
  | .data bytes :: rest => bytes.rest ++ Source.bytes rest
  | _ => []

/-- Whether a stream has no end yet. -/
def isOpen : Source → Bool
  | [] => true
  | .data _ :: rest => isOpen rest
  | _ => false

theorem bytes_append (source : Source) (item : Item) :
    Source.bytes (source ++ [item]) =
      source.bytes ++ if source.isOpen then Source.bytes [item] else [] := by
  induction source with
  | nil => simp [isOpen, bytes]
  | cons first rest ih =>
    cases first with
    | data cursor =>
      rw [List.cons_append, bytes, ih, bytes, isOpen, List.append_assoc]
    | ended | failed _ => simp [bytes, isOpen]

theorem isOpen_append (source : Source) (item : Item) :
    Source.isOpen (source ++ [item]) = (source.isOpen && Source.isOpen [item]) := by
  induction source with
  | nil => simp [isOpen]
  | cons first rest ih =>
    cases first with
    | data bytes => simpa [isOpen] using ih
    | ended | failed _ => simp [isOpen]

/-- What a read does to the bytes of a stream. -/
inductive Serves (source : Source) : Except Fault ByteArray → Source → Prop
  | piece {rest : Source} (piece : ByteArray) (h0 : piece.size ≠ 0)
      (hb : source.bytes = piece.data.toList ++ rest.bytes) (ho : rest.isOpen = source.isOpen)
      (hp : ∀ item ∈ rest, item.Proper) : Serves source (.ok piece) rest
  | ended {rest : Source} (hb : source.bytes = []) (ho : source.isOpen = false)
      (hp : ∀ item ∈ rest, item.Proper) : Serves source (.ok .empty) rest
  | broken {rest : Source} (hb : source.bytes = []) (ho : source.isOpen = false)
      (hp : ∀ item ∈ rest, item.Proper) : Serves source (.error Connection.broken) rest

theorem read_serves (hp : ∀ item ∈ source, item.Proper) (hs : source ≠ []) (h0 : 0 < limit) :
    Serves source (source.read limit).1 (source.read limit).2 := by
  cases source with
  | nil => exact absurd rfl hs
  | cons item rest =>
    obtain ⟨hi, hrest⟩ := List.forall_mem_cons.mp hp
    cases item with
    | ended => exact .ended rfl rfl hrest
    | failed fault =>
      obtain rfl : fault = Connection.broken := hi
      exact .broken rfl rfl hrest
    | data cursor =>
      have hr : 0 < cursor.remaining := hi
      have hk : min limit cursor.remaining ≤ cursor.rest.length := by
        rw [Cursor.length_rest]
        exact Nat.min_le_right _ _
      obtain ⟨⟨chunk, left⟩, ht⟩ := Option.isSome_iff_exists.mp (Cursor.take?_isSome_iff.mpr hk)
      obtain ⟨hchunk, hleft⟩ := Cursor.rest_of_take? ht
      have hsize : chunk.size = min limit cursor.remaining := by
        have := congrArg List.length hchunk
        rw [List.length_take_of_le hk] at this
        simpa using this
      have hsplit : cursor.rest = chunk.data.toList ++ left.rest := by
        rw [hchunk, hleft, List.take_append_drop]
      have hne : chunk.size ≠ 0 := by omega
      simp only [read, ht, if_neg (Nat.ne_of_gt hr)]
      by_cases hl : left.remaining = 0
      · have hnil : left.rest = [] := List.eq_nil_of_length_eq_zero (Cursor.length_rest.trans hl)
        rw [if_pos hl]
        exact .piece chunk hne (by simp [bytes, hsplit, hnil]) rfl hrest
      · rw [if_neg hl]
        refine .piece chunk hne (by simp [bytes, hsplit]) rfl ?_
        exact List.forall_mem_cons.mpr ⟨Nat.pos_of_ne_zero hl, hrest⟩

end Source

/-- The bytes that a script sends before it ends the stream or breaks it off. It does not break off
what the client has closed. -/
def Act.bytes (closed : Bool) : List Act → List UInt8
  | [] => []
  | .send bytes :: script => bytes.data.toList ++ Act.bytes closed script
  | .finish :: _ => []
  | .reset :: script => if closed then Act.bytes closed script else []
  | _ :: script => Act.bytes closed script

namespace Connection

variable {c : Connection} {now time : Nat} {script : List Act}

/-- What is still to be read, whether the server has sent it or not. -/
def coming (c : Connection) : List UInt8 :=
  c.inbound.bytes ++ if c.inbound.isOpen then Act.bytes c.closed c.script else []

/-- Whether all that has arrived brings something. -/
def Tidy (c : Connection) : Prop := ∀ item ∈ c.inbound, item.Proper

theorem coming_playScript (now : Nat) (c : Connection) (script : List Act) :
    (playScript now c script).coming = { c with script }.coming := by
  induction script generalizing c with
  | nil => simp [playScript]
  | cons act script ih =>
    cases act with
    | await frames =>
      simp only [playScript]
      split
      · rw [ih]
        rfl
      · rfl
    | pause time =>
      simp only [playScript]
      split
      · rw [ih]
        rfl
      · rfl
    | send bytes =>
      simp only [playScript]
      split
      · rename_i h0
        obtain rfl := ByteArray.size_eq_zero_iff.mp h0
        rw [ih]
        simp [coming, Act.bytes]
      · rw [ih]
        cases ho : c.inbound.isOpen <;>
          simp [coming, Source.bytes_append, Source.isOpen_append, Source.bytes, Source.isOpen, ho,
            Act.bytes, Cursor.rest_ofBytes]
    | finish =>
      rw [playScript, ih]
      cases ho : c.inbound.isOpen <;>
        simp [coming, Source.bytes_append, Source.isOpen_append, Source.bytes, Source.isOpen, ho,
          Act.bytes]
    | reset =>
      simp only [playScript]
      split
      · rename_i hc
        rw [ih]
        simp [coming, Act.bytes, hc]
      · rename_i hc
        cases ho : c.inbound.isOpen <;>
          simp [coming, Source.bytes_append, Source.isOpen_append, Source.bytes, Source.isOpen, ho,
            Act.bytes, hc]

@[simp] theorem coming_play : (c.play now).coming = c.coming := coming_playScript now c c.script

theorem tidy_append (h : c.Tidy) {item : Source.Item} (hi : item.Proper) :
    { c with inbound := c.inbound ++ [item] }.Tidy := by
  intro other ho
  rcases List.mem_append.mp ho with hm | hm
  · exact h other hm
  · rwa [List.mem_singleton.mp hm]

theorem tidy_playScript (h : c.Tidy) (now : Nat) (script : List Act) :
    (playScript now c script).Tidy := by
  induction script generalizing c with
  | nil => exact h
  | cons act script ih =>
    cases act with
    | await frames =>
      simp only [playScript]
      split
      · exact ih h
      · exact h
    | pause time =>
      simp only [playScript]
      split
      · exact ih h
      · exact h
    | send bytes =>
      simp only [playScript]
      split
      · exact ih h
      · rename_i h0
        have hr : (Cursor.ofBytes bytes).remaining = bytes.size := rfl
        have hi : (Source.Item.data (.ofBytes bytes)).Proper := by
          rw [Source.Item.Proper, hr]
          exact Nat.pos_of_ne_zero h0
        exact ih (tidy_append h hi)
    | finish => exact ih (tidy_append h trivial)
    | reset =>
      simp only [playScript]
      split
      · exact ih h
      · exact tidy_append h rfl

theorem Tidy.play (h : c.Tidy) (now : Nat) : (c.play now).Tidy := tidy_playScript h now c.script

/-- A script that does not break off leaves the connection whole. -/
theorem severed_playScript (h : Act.reset ∉ script) (now : Nat) (c : Connection) :
    (playScript now c script).severed = c.severed := by
  induction script generalizing c with
  | nil => rfl
  | cons act script ih =>
    have ih := ih fun hr => h (List.mem_cons_of_mem _ hr)
    cases act with
    | await frames =>
      simp only [playScript]
      split
      · rw [ih]
      · rfl
    | pause time =>
      simp only [playScript]
      split
      · rw [ih]
      · rfl
    | send bytes =>
      simp only [playScript]
      split <;> rw [ih]
    | finish => rw [playScript, ih]
    | reset => exact absurd List.mem_cons_self h

theorem script_playScript (h : Act.reset ∉ script) (now : Nat) (c : Connection) :
    Act.reset ∉ (playScript now c script).script := by
  induction script generalizing c with
  | nil => exact List.not_mem_nil
  | cons act script ih =>
    have ih := ih fun hr => h (List.mem_cons_of_mem _ hr)
    cases act with
    | await frames =>
      simp only [playScript]
      split
      · exact ih _
      · exact h
    | pause time =>
      simp only [playScript]
      split
      · exact ih _
      · exact h
    | send bytes =>
      simp only [playScript]
      split <;> exact ih _
    | finish => exact ih _
    | reset => exact absurd List.mem_cons_self h

theorem inbound_playScript (now : Nat) (c : Connection) (script : List Act) :
    c.inbound <+: (playScript now c script).inbound := by
  induction script generalizing c with
  | nil => exact List.prefix_refl _
  | cons act script ih =>
    cases act with
    | await frames =>
      simp only [playScript]
      split
      · exact ih { c with clock := max c.clock c.touched }
      · exact List.prefix_refl _
    | pause time =>
      simp only [playScript]
      split
      · exact ih { c with clock := c.clock + time }
      · exact List.prefix_refl _
    | send bytes =>
      simp only [playScript]
      split
      · exact ih c
      · exact (List.prefix_append _ _).trans (ih { c with inbound := c.inbound ++ [_] })
    | finish => exact (List.prefix_append _ _).trans (ih { c with inbound := c.inbound ++ [_] })
    | reset =>
      simp only [playScript]
      split
      · exact ih c
      · exact List.prefix_append _ _

theorem arrival?_clock (c : Connection) (k clock : Nat) (script : List Act) :
    { c with clock := k }.arrival? clock script = c.arrival? clock script := by
  induction script generalizing clock with
  | nil => rfl
  | cons act script ih =>
    cases act with
    | await frames =>
      simp only [arrival?, ih]
      rfl
    | _ => simp only [arrival?, ih]

theorem le_of_arrival? {clock : Nat} (h : c.arrival? clock script = some time) : clock ≤ time := by
  induction script generalizing clock with
  | nil => cases h
  | cons act script ih =>
    cases act with
    | await frames =>
      simp only [arrival?] at h
      split at h
      · have := ih h
        omega
      · cases h
    | pause delay =>
      have := ih h
      omega
    | send bytes =>
      simp only [arrival?] at h
      split at h
      · exact ih h
      · cases h
        exact Nat.le_refl _
    | finish =>
      cases h
      exact Nat.le_refl _
    | reset =>
      simp only [arrival?] at h
      split at h
      · exact ih h
      · cases h
        exact Nat.le_refl _

theorem inbound_of_arrival? (h : c.arrival? c.clock script = some time) (ht : time ≤ now) :
    (playScript now c script).inbound ≠ [] := by
  have more (c : Connection) (item : Source.Item) (script : List Act) :
      (playScript now { c with inbound := c.inbound ++ [item] } script).inbound ≠ [] := by
    intro hn
    have hp := inbound_playScript now { c with inbound := c.inbound ++ [item] } script
    rw [hn] at hp
    simpa using List.prefix_nil.mp hp
  induction script generalizing c with
  | nil => cases h
  | cons act script ih =>
    cases act with
    | await frames =>
      simp only [arrival?] at h
      simp only [playScript]
      split at h
      · rename_i hs
        rw [if_pos hs]
        exact ih (by rw [arrival?_clock]; exact h)
      · cases h
    | pause delay =>
      have h' : c.arrival? (c.clock + delay) script = some time := h
      have hle := le_of_arrival? h'
      simp only [playScript]
      rw [if_pos (by omega)]
      exact ih (by rw [arrival?_clock]; exact h')
    | send bytes =>
      simp only [arrival?] at h
      simp only [playScript]
      split at h
      · rename_i h0
        rw [if_pos h0]
        exact ih h
      · rename_i h0
        rw [if_neg h0]
        exact more c _ script
    | finish => exact more c _ script
    | reset =>
      simp only [arrival?] at h
      simp only [playScript]
      split at h
      · rename_i hc
        rw [if_pos hc]
        exact ih h
      · rename_i hc
        rw [if_neg hc]
        simp

/-- By the time at which something arrives it is there. -/
theorem inbound_play_of_nextArrival? (h : c.nextArrival? = some time) (ht : time ≤ now) :
    (c.play now).inbound ≠ [] := inbound_of_arrival? h ht

theorem coming_write (now : Nat) (bytes : ByteArray) : (c.write now bytes).2.coming = c.coming := by
  have houtbound (c : Connection) (outbound : Sink) (touched : Nat) :
      { c with outbound, touched }.coming = c.coming := rfl
  simp only [write]
  split
  · rw [coming_play]
  · rw [coming_play, houtbound, coming_play]

theorem Tidy.write (h : c.Tidy) (now : Nat) (bytes : ByteArray) : (c.write now bytes).2.Tidy := by
  simp only [Connection.write]
  split
  · exact h.play now
  · have htidy {c : Connection} (h : c.Tidy) (outbound : Sink) (touched : Nat) :
        { c with outbound, touched }.Tidy := h
    exact (htidy (h.play now) _ now).play now

end Connection
end Gallows
