import Gallows.Settings.Reader
import Mathlib.Data.List.Basic

/-!
What a settings file settles. Every setting has the value that the file gives for it, and its
default where the file gives none.
-/
namespace Gallows

/-- Whether a value is what a source spells, if there is one, or else the fallback. -/
inductive Settled {σ α : Type} (spells : σ → Option α) : Option σ → (fallback : α) → α → Prop
  | source {source : σ} {fallback value : α} (h : spells source = some value) :
      Settled spells (some source) fallback value
  | fallback (value : α) : Settled spells none value value

/-- Of two sources, one behind the other, the later one counts. -/
theorem Settled.trans {σ α : Type} {spells : σ → Option α} {first second : Option σ} {x y z : α}
    (h : Settled spells first x y) (h' : Settled spells second y z) :
    Settled spells (second.or first) x z := by
  cases h' with
  | source h' => exact .source h'
  | fallback => exact h

namespace Settings

open Toml (Node)

variable {α β : Type} {layout : Layout α} {name : String} {get : α → β} {read : Node → Option β}
  {record record' : α} {node : Node}

/-- The members that a list stands for: a value for every name, in order. -/
def Layout.named (layout : Layout α) (items : List Node) : List (String × Node) :=
  (layout.zip items).map fun (member, item) => (member.1, item)

/-- What a document gives for a member of a record, the last value if there are several. -/
def Layout.item? (layout : Layout α) (name : String) : Node → Option Node
  | .table _ members => members.reverse.lookup name
  | .list items => (layout.named items).reverse.lookup name
  | .tables items => (layout.named (items.map (.table .header))).reverse.lookup name
  | _ => none

/-- Whether the member with this name is the only one that sets a part of the record, and sets it to
what it reads. -/
structure Layout.Sets (layout : Layout α) (name : String) (get : α → β)
    (read : Node → Option β) : Prop where
  there : layout.lookup name ≠ none
  own : ∀ set, (name, set) ∈ layout → ∀ item record record', set item record = some record' →
    read item = some (get record')
  other : ∀ member ∈ layout, member.1 ≠ name → ∀ item record record',
    member.2 item record = some record' → get record' = get record

theorem mem_of_lookup {l : List (String × β)} {value : β} (h : l.lookup name = some value) :
    (name, value) ∈ l := by
  obtain ⟨before, behind, rfl, -⟩ := List.lookup_eq_some_iff.mp h
  simp

/-- One member sets what it has. -/
theorem Layout.Sets.member (h : layout.Sets name get read) {key : String}
    {set : Node → α → Option α} (hm : (key, set) ∈ layout) {item : Node}
    (hs : set item record = some record') :
    Settled read (if name == key then some item else none) (get record) (get record') := by
  by_cases hn : name = key
  · subst hn
    simpa using Settled.source (h.own set hm item record record' hs)
  · rw [h.other _ hm (Ne.symm hn) item record record' hs]
    simpa [hn] using Settled.fallback (get record)

theorem lookup_reverse_cons (key : String) (item : Node) (members : List (String × Node)) :
    List.lookup name ((key, item) :: members).reverse =
      (members.reverse.lookup name).or (if name == key then some item else none) := by
  rw [List.reverse_cons, List.lookup_append, List.lookup_cons, List.lookup_nil]
  cases name == key <;> rfl

/-- A table sets what the last of its members with the name has. -/
theorem Layout.Sets.table (h : layout.Sets name get read) (members : List (String × Node))
    (hr : members.foldlM (fun record (key, value) =>
      match layout.lookup key with
      | none => some record
      | some set => set value record) record = some record') :
    Settled read (members.reverse.lookup name) (get record) (get record') := by
  induction members generalizing record with
  | nil =>
    obtain rfl := Option.some.inj hr
    exact .fallback _
  | cons member members ih =>
    obtain ⟨key, item⟩ := member
    rw [List.foldlM_cons] at hr
    obtain ⟨record₁, hfirst, hr⟩ := Option.bind_eq_some_iff.mp hr
    rw [lookup_reverse_cons]
    refine Settled.trans ?_ (ih hr)
    cases hl : layout.lookup key with
    | none =>
      simp only [hl] at hfirst
      obtain rfl := Option.some.inj hfirst
      have hne : (name == key) = false := beq_false_of_ne fun he => h.there (he ▸ hl)
      rw [hne]
      exact .fallback _
    | some set =>
      simp only [hl] at hfirst
      exact h.member (mem_of_lookup hl) hfirst

/-- A list sets what it has in the place of the member. -/
theorem Layout.Sets.fill (h : layout.Sets name get read) {items : List Node}
    (hr : layout.fill items record = some record') :
    Settled read ((layout.named items).reverse.lookup name) (get record) (get record') := by
  have hmem : ∀ pair ∈ layout.zip items, pair.1 ∈ layout :=
    fun pair hp => (List.of_mem_zip hp).1
  rw [Layout.fill] at hr
  rw [Layout.named]
  generalize layout.zip items = pairs at hr hmem
  induction pairs generalizing record with
  | nil =>
    obtain rfl := Option.some.inj hr
    exact .fallback _
  | cons pair pairs ih =>
    obtain ⟨⟨key, set⟩, item⟩ := pair
    obtain ⟨hfirst, hrest⟩ := List.forall_mem_cons.mp hmem
    rw [List.foldlM_cons] at hr
    obtain ⟨record₁, hset, hr⟩ := Option.bind_eq_some_iff.mp hr
    rw [List.map_cons, lookup_reverse_cons]
    exact (h.member hfirst hset).trans (ih hr hrest)

theorem Layout.Sets.reads (h : layout.Sets name get read)
    (hr : layout.read node record = some record') :
    Settled read (layout.item? name node) (get record) (get record') := by
  cases node with
  | table _ members => exact h.table members hr
  | list items => exact h.fill hr
  | tables items => exact h.fill hr
  | moment =>
    obtain rfl := Option.some.inj hr
    exact .fallback _
  | text | integer | flag | real => cases hr

/-- What is read from a table settles what the table gives for a member. -/
theorem Layout.settled {source : Option Node} (get : α → β) (h : layout.Sets name get read)
    (hs : Settled (layout.read · record) source record record') :
    Settled read (source.bind (layout.item? name)) (get record) (get record') := by
  cases hs with
  | source hs => exact h.reads hs
  | fallback => exact .fallback _

/-- Whether the settings of the server are those of a table, if there is one, and the defaults where
it gives none. -/
structure Server.From (table : Option Node) (s : Server) : Prop where
  address : Settled readText (table.bind (Server.layout.item? "address")) "127.0.0.1" s.address
  gamePort : Settled readPort (table.bind (Server.layout.item? "game_port")) 8001 s.gamePort
  notificationPort : Settled readPort (table.bind (Server.layout.item? "notification_port")) 8002
    s.notificationPort
  connectTimeout : Settled readTime (table.bind (Server.layout.item? "connect_timeout_secs")) 5
    s.connectTimeout
  readTimeout : Settled readTime (table.bind (Server.layout.item? "read_timeout_ms")) 1000
    s.readTimeout
  requestTimeout : Settled readTime (table.bind (Server.layout.item? "request_timeout_secs")) 10
    s.requestTimeout
  pollInterval : Settled readTime (table.bind (Server.layout.item? "poll_interval_ms")) 100
    s.pollInterval
  subscribe : Settled readFlag (table.bind (Server.layout.item? "subscribe_on_connect")) true
    s.subscribe

/-- Whether the settings of the player are those of a table. -/
structure Player.From (table : Option Node) (p : Player) : Prop where
  username : Settled (readText · |>.map some) (table.bind (Player.layout.item? "username")) none
    p.username
  password : Settled (readText · |>.map some) (table.bind (Player.layout.item? "password")) none
    p.password

/-- Whether settings are those of a file's table, section by section. -/
structure From (table : Option Node) (settings : Settings) : Prop where
  server : settings.server.From (table.bind (Settings.layout.item? "server"))
  player : settings.player.From (table.bind (Settings.layout.item? "player"))

theorem Server.from_of_settled {table : Option Node} {s : Server}
    (h : Settled (Server.layout.read · {}) table {} s) : s.From table := by
  refine ⟨Layout.settled address ?_ h, Layout.settled gamePort ?_ h,
    Layout.settled notificationPort ?_ h, Layout.settled connectTimeout ?_ h,
    Layout.settled readTimeout ?_ h, Layout.settled requestTimeout ?_ h,
    Layout.settled pollInterval ?_ h, Layout.settled subscribe ?_ h⟩
  all_goals refine ⟨by decide, ?_, ?_⟩
  all_goals simp [layout, Option.bind_eq_some_iff, -Bool.forall_bool, -Bool.exists_bool]

theorem Player.from_of_settled {table : Option Node} {p : Player}
    (h : Settled (Player.layout.read · {}) table {} p) : p.From table := by
  refine ⟨Layout.settled username ?_ h, Layout.settled password ?_ h⟩
  all_goals refine ⟨by decide, ?_, ?_⟩
  all_goals simp [layout, Option.bind_eq_some_iff]

/-- A section is read on its own, from the defaults on. -/
theorem from_of_settled {table : Option Node} {settings : Settings}
    (h : Settled (Settings.layout.read · {}) table {} settings) : settings.From table := by
  refine ⟨Server.from_of_settled (Layout.settled server ?_ h),
    Player.from_of_settled (Layout.settled player ?_ h)⟩
  all_goals refine ⟨by decide, ?_, ?_⟩
  all_goals simp [Settings.layout, Option.bind_eq_some_iff]

variable {host : Host} {path? : Option String} {settings : Settings}

/-- The table of the settings file: of the one that is named, or of the one for all other cases, if
it is there. -/
def table? (host : Host) (path? : Option String) : Option Node := do
  let path ← path?.or (if host.hasEntry (defaultPath host) then some (defaultPath host) else none)
  let bytes ← (host.read path).toOption
  return .table .header (← Toml.read? (← String.fromUTF8? bytes))

theorem ofFile_eq_ok {path : String} (h : ofFile host path = .ok settings) :
    ∃ table, table? host (some path) = some table ∧
      Settings.layout.read table {} = some settings := by
  rw [ofFile] at h
  split at h
  · cases h
  · rename_i bytes hread
    rw [ofBytes] at h
    split at h
    · cases h
    · rename_i text htext
      split at h
      · cases h
      · rename_i s hs
        cases h
        obtain ⟨members, hmembers, hs⟩ := Option.bind_eq_some_iff.mp hs
        exact ⟨_, by simp [table?, hread, htext, hmembers, Except.toOption], hs⟩

/-- The settings are those of the file, and the defaults without one. -/
theorem from_of_load (h : load host path? = .ok settings) : settings.From (table? host path?) := by
  apply from_of_settled
  cases path? with
  | some path =>
    obtain ⟨table, htable, hread⟩ := ofFile_eq_ok h
    rw [htable]
    exact .source hread
  | none =>
    simp only [load] at h
    split at h
    · rename_i hentry
      obtain ⟨table, htable, hread⟩ := ofFile_eq_ok h
      have hdefault : table? host none = table? host (some (defaultPath host)) := by
        simp [table?, hentry]
      rw [hdefault, htable]
      exact .source hread
    · rename_i hentry
      cases h
      have hnone : table? host none = none := by simp [table?, hentry]
      rw [hnone]
      exact .fallback _

end Settings
end Gallows
