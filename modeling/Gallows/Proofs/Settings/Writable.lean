import Gallows.Proofs.Settings.Layout
import Gallows.Proofs.Toml.Range
import Gallows.Settings.Writer

/-!
Settings that can be written as a file. The times of settings have 64 bits without a sign, the
integers of a file 64 bits with one. What comes from a file can be written to one again; what a
command line says of a time may be too great.
-/
namespace Gallows

open Toml (Node)

variable {host : Host} {path? : Option String} {settings : Settings} {node item : Node}
  {time : UInt64}

namespace Settings

/-- How many times fit into the integers of a settings file. -/
def timeLimit : Nat := 0x8000000000000000

/-- Whether a time can be written. -/
def TimeFits (time : UInt64) : Prop := time.toNat < timeLimit

instance : DecidablePred TimeFits := fun time =>
  inferInstanceAs (Decidable (time.toNat < timeLimit))

/-- Whether all times that come from nowhere but the file can be written. -/
structure Server.FileTimesFit (s : Server) : Prop where
  readTimeout : TimeFits s.readTimeout
  requestTimeout : TimeFits s.requestTimeout
  pollInterval : TimeFits s.pollInterval

/-! Writing. -/

theorem writeTime_of_fits (h : TimeFits time) : writeTime time = .ok (toString time.toNat) :=
  if_pos h

theorem writeTime_of_not_fits (h : ¬ TimeFits time) : writeTime time = .error .unwritable :=
  if_neg h

theorem render_of_fits (h : settings.server.FileTimesFit)
    (hconnect : TimeFits settings.server.connectTimeout) : ∃ text, settings.render = .ok text := by
  have hserver : settings.masked.server = settings.server := rfl
  rw [render, write, hserver, Server.write, writeTime_of_fits hconnect,
    writeTime_of_fits h.readTimeout, writeTime_of_fits h.requestTimeout,
    writeTime_of_fits h.pollInterval]
  exact ⟨_, rfl⟩

theorem render_of_not_fits (h : ¬ TimeFits settings.server.connectTimeout) :
    settings.render = .error .unwritable := by
  have hserver : settings.masked.server = settings.server := rfl
  rw [render, write, hserver, Server.write, writeTime_of_not_fits h]
  rfl

/-! Reading. -/

theorem timeFits_of_readTime (h : node.Fits) (hr : readTime node = some time) :
    TimeFits time := by
  obtain ⟨n, hn, rfl⟩ := Option.map_eq_some_iff.mp hr
  cases h with
  | @integer value hvalue =>
    cases value with
    | ofNat m =>
      obtain ⟨-, rfl⟩ : m < 0x10000000000000000 ∧ m = n := by simpa [readNumber] using hn
      have hm : m < 0x8000000000000000 := Int.ofNat_lt.mp hvalue.2
      rw [TimeFits, timeLimit, Nat.toUInt64, UInt64.toNat_ofNat']
      omega
    | negSucc m => cases hn
  | text | flag | real | moment | list | table | tables => cases hn

theorem fits_of_mem_named {α : Type} {layout : Layout α} {items : List Node} {name : String}
    (h : ∀ item ∈ items, item.Fits)
    (hl : (layout.named items).reverse.lookup name = some item) : item.Fits := by
  obtain ⟨before, behind, hsplit, -⟩ := List.lookup_eq_some_iff.mp hl
  have hmem : (name, item) ∈ layout.named items := by
    rw [← List.mem_reverse, hsplit]
    simp
  obtain ⟨pair, hpair, heq⟩ := List.mem_map.mp hmem
  cases heq
  exact h _ (List.of_mem_zip hpair).2

/-- What a document gives for a member of a record is a part of the document. -/
theorem fits_item? {α : Type} {layout : Layout α} {name : String} (h : node.Fits)
    (hi : layout.item? name node = some item) : item.Fits := by
  cases h with
  | table hmembers =>
    have hreverse : Toml.Members.Fit _ := fun m hm => hmembers m (List.mem_reverse.mp hm)
    exact hreverse.lookup hi
  | list hitems => exact fits_of_mem_named hitems hi
  | tables hitems =>
    refine fits_of_mem_named ?_ hi
    intro item hitem
    obtain ⟨members, hmembers, rfl⟩ := List.mem_map.mp hitem
    exact .table (hitems members hmembers)
  | text | integer | flag | real | moment => cases hi

theorem fits_table? (h : table? host path? = some node) : node.Fits := by
  obtain ⟨_, -, h⟩ := Option.bind_eq_some_iff.mp h
  obtain ⟨_, -, h⟩ := Option.bind_eq_some_iff.mp h
  obtain ⟨_, -, h⟩ := Option.bind_eq_some_iff.mp h
  obtain ⟨members, hmembers, h⟩ := Option.bind_eq_some_iff.mp h
  cases h
  exact .table (Toml.fit_of_read? hmembers)

/-- A time that comes from a file, or else is a default that can be written, can be written. -/
theorem timeFits_of_settled {table : Option Node} {name : String} {default : UInt64}
    (htable : ∀ node, table = some node → node.Fits) (hdefault : TimeFits default)
    (h : Settled readTime (table.bind (Server.layout.item? name)) default time) :
    TimeFits time := by
  generalize hsource : table.bind (Server.layout.item? name) = source at h
  cases h with
  | source hread =>
    obtain ⟨node, hnode, hitem⟩ := Option.bind_eq_some_iff.mp hsource
    exact timeFits_of_readTime (fits_item? (htable node hnode) hitem) hread
  | fallback => exact hdefault

/-- All times in the settings of a file can be written. -/
theorem timesFit_of_load (h : load host path? = .ok settings) :
    TimeFits settings.server.connectTimeout ∧ settings.server.FileTimesFit := by
  have hfrom := (from_of_load h).server
  have hserver : ∀ node, (table? host path?).bind (Settings.layout.item? "server") = some node →
      node.Fits := by
    intro node hnode
    obtain ⟨table, htable, hitem⟩ := Option.bind_eq_some_iff.mp hnode
    exact fits_item? (fits_table? htable) hitem
  exact ⟨timeFits_of_settled hserver (by decide) hfrom.connectTimeout,
    timeFits_of_settled hserver (by decide) hfrom.readTimeout,
    timeFits_of_settled hserver (by decide) hfrom.requestTimeout,
    timeFits_of_settled hserver (by decide) hfrom.pollInterval⟩

end Settings
end Gallows
