import Gallows.Toml.Reader
import Mathlib.Tactic.Common

/-!
The integers of a document. Whatever a text spells, an integer that is read from it has 64 bits: the
numbers are checked where they are read, and putting sections and tables together moves nodes and
makes no new numbers.
-/
namespace Gallows.Toml

variable {cs rest : List Char} {node : Node} {fuel : Nat} {members members' : Members}

/-- Whether all integers in a node have 64 bits. -/
inductive Node.Fits : Node → Prop
  | text (value : String) : Fits (.text value)
  | integer {value : Int} (h : -0x8000000000000000 ≤ value ∧ value < 0x8000000000000000) :
      Fits (.integer value)
  | flag (value : Bool) : Fits (.flag value)
  | real : Fits .real
  | moment : Fits .moment
  | list {items : List Node} (h : ∀ item ∈ items, Fits item) : Fits (.list items)
  | table {origin : Origin} {members : List (String × Node)} (h : ∀ m ∈ members, Fits m.2) :
      Fits (.table origin members)
  | tables {items : List (List (String × Node))} (h : ∀ item ∈ items, ∀ m ∈ item, Fits m.2) :
      Fits (.tables items)

/-- Whether all integers in the members of a table have 64 bits. -/
def Members.Fit (members : Members) : Prop := ∀ m ∈ members, m.2.Fits

/-- Whether all integers in entries have 64 bits. -/
def EntriesFit (entries : List Entry) : Prop := ∀ entry ∈ entries, entry.2.2.Fits

/-- Whether what is scanned has integers of 64 bits. -/
def ScansFit (scan : Scan Node) : Prop :=
  ∀ cs node rest, scan cs = some (node, rest) → node.Fits

/-! Numbers. -/

theorem fits_of_integer? {value : Int} (h : integer? value = some node) : node.Fits := by
  rw [integer?] at h
  split at h
  · rename_i hbounds
    cases h
    exact .integer hbounds
  · cases h

theorem fits_scanIn {base : Nat} {isDigit : Char → Bool}
    (h : scanIn base isDigit cs = some (node, rest)) : node.Fits := by
  obtain ⟨_, -, h⟩ := Option.bind_eq_some_iff.mp h
  obtain ⟨node', hnode, h⟩ := Option.bind_eq_some_iff.mp h
  cases h
  exact fits_of_integer? hnode

theorem scansFit_integer : ScansFit scanInteger := by
  intro cs node rest h
  unfold scanInteger at h
  split at h
  · exact fits_scanIn h
  · exact fits_scanIn h
  · exact fits_scanIn h
  · obtain ⟨_, -, h⟩ := Option.bind_eq_some_iff.mp h
    obtain ⟨node', hnode, h⟩ := Option.bind_eq_some_iff.mp h
    cases h
    exact fits_of_integer? hnode

theorem scansFit_real : ScansFit scanReal := by
  intro cs node rest h
  unfold scanReal at h
  split at h
  · cases h
    exact .real
  · cases h
    exact .real
  · obtain ⟨_, -, h⟩ := Option.bind_eq_some_iff.mp h
    simp only [Option.bind_eq_bind] at h
    split at h
    · simp [Option.bind_eq_some_iff] at h
      obtain ⟨_, _, -, _, -, -, rfl⟩ := h
      exact .real
    · simp [Option.bind_eq_some_iff] at h
      obtain ⟨_, -, -, -, rfl⟩ := h
      exact .real

theorem scansFit_moment : ScansFit scanMoment := by
  intro cs node rest h
  obtain ⟨_, -, h⟩ := Option.map_eq_some_iff.mp h
  cases h
  exact .moment

theorem scansFit_number : ScansFit scanNumber := by
  intro cs node rest h
  rw [scanNumber, Option.orElse_eq_orElse, Option.orElse_eq_or, Option.orElse_eq_or,
    Option.or_eq_some_iff, Option.or_eq_some_iff] at h
  rcases h with h | ⟨-, h | ⟨-, h⟩⟩
  · exact scansFit_moment _ _ _ h
  · exact scansFit_real _ _ _ h
  · exact scansFit_integer _ _ _ h

/-! Values. -/

variable {scan : Scan Node}

theorem fits_scanItems {items : List Node} (hscan : ScansFit scan)
    (h : scanItems scan fuel cs = some (items, rest)) : ∀ item ∈ items, item.Fits := by
  induction fuel generalizing cs items rest with
  | zero => cases h
  | succ fuel ih =>
    obtain ⟨_, -, h⟩ := Option.bind_eq_some_iff.mp h
    split at h
    · cases h
      exact List.forall_mem_nil _
    · obtain ⟨⟨item, _⟩, hitem, h⟩ := Option.bind_eq_some_iff.mp h
      obtain ⟨_, -, h⟩ := Option.bind_eq_some_iff.mp h
      split at h
      · obtain ⟨⟨items', _⟩, hitems, h⟩ := Option.bind_eq_some_iff.mp h
        cases h
        exact List.forall_mem_cons.mpr ⟨hscan _ _ _ hitem, ih hitems⟩
      · cases h
        exact List.forall_mem_singleton.mpr (hscan _ _ _ hitem)
      · cases h

theorem fits_scanEntry {entry : Entry} (hscan : ScansFit scan)
    (h : scanEntry scan cs = some (entry, rest)) : entry.2.2.Fits := by
  obtain ⟨_, -, h⟩ := Option.bind_eq_some_iff.mp h
  obtain ⟨_, -, h⟩ := Option.bind_eq_some_iff.mp h
  obtain ⟨⟨value, _⟩, hvalue, h⟩ := Option.bind_eq_some_iff.mp h
  cases h
  exact hscan _ _ _ hvalue

theorem fits_scanBraces {entries : List Entry} (hscan : ScansFit scan)
    (h : scanBraces scan fuel cs = some (entries, rest)) : EntriesFit entries := by
  induction fuel generalizing cs entries rest with
  | zero => cases h
  | succ fuel ih =>
    obtain ⟨⟨entry, _⟩, hentry, h⟩ := Option.bind_eq_some_iff.mp h
    have hfits := fits_scanEntry hscan hentry
    simp only at h
    split at h
    · obtain ⟨⟨entries', _⟩, hentries, h⟩ := Option.bind_eq_some_iff.mp h
      cases h
      exact List.forall_mem_cons.mpr ⟨hfits, ih hentries⟩
    · cases h
      exact List.forall_mem_singleton.mpr hfits
    · cases h

/-! Tables. -/

theorem Members.Fit.append (h : members.Fit) (h' : members'.Fit) :
    Members.Fit (members ++ members') :=
  List.forall_mem_append.mpr ⟨h, h'⟩

theorem Members.Fit.snoc (h : members.Fit) (key : String) (hn : node.Fits) :
    Members.Fit (members ++ [(key, node)]) :=
  h.append (List.forall_mem_singleton.mpr hn)

theorem Members.Fit.replace (h : members.Fit) (key : String) (hn : node.Fits) :
    (members.replace key node).Fit := by
  intro m hm
  obtain ⟨m', hm', rfl⟩ := List.mem_map.mp hm
  split
  · exact hn
  · exact h m' hm'

theorem Members.Fit.lookup {key : String} (h : members.Fit)
    (hl : members.lookup key = some node) : node.Fits := by
  obtain ⟨before, behind, rfl, -⟩ := List.lookup_eq_some_iff.mp hl
  exact h (key, node) (by simp)

/-- A change at the end of a path is one of nodes that were there, or that the change makes. -/
theorem Members.Fit.alter {dotted : Bool} {change : Origin → Members → Option Members}
    (hchange : ∀ origin inner inner', Members.Fit inner → change origin inner = some inner' →
      Members.Fit inner')
    {path : List String} {origin : Origin} (h : members.Fit)
    (ha : members.alter dotted change path origin = some members') : members'.Fit := by
  induction path generalizing origin members members' with
  | nil => exact hchange _ _ _ h ha
  | cons key path ih =>
    rw [Members.alter] at ha
    split at ha
    · obtain ⟨inner, hinner, ha⟩ := Option.bind_eq_some_iff.mp ha
      cases ha
      exact h.snoc key (.table (ih (List.forall_mem_nil _) hinner))
    · rename_i origin' inner hlookup
      cases h.lookup hlookup with
      | table hfits =>
        simp only [Option.bind_eq_bind] at ha
        split at ha
        · cases ha
        · obtain ⟨inner', hinner, ha⟩ := Option.bind_eq_some_iff.mp ha
          cases ha
          exact h.replace key (.table (ih hfits hinner))
    · rename_i items hlookup
      cases h.lookup hlookup with
      | tables hfits =>
        obtain ⟨last, hlast, ha⟩ := Option.bind_eq_some_iff.mp ha
        obtain ⟨inner, hinner, ha⟩ := Option.bind_eq_some_iff.mp ha
        cases ha
        have hinner : Members.Fit inner := ih (hfits last (List.mem_of_getLast? hlast)) hinner
        refine h.replace key (.tables (List.forall_mem_append.mpr ⟨?_, ?_⟩))
        · exact fun item hitem => hfits item (List.dropLast_subset _ hitem)
        · exact List.forall_mem_singleton.mpr hinner
    · cases ha

theorem Members.Fit.add {path : List String} {key : String} (h : members.Fit) (hn : node.Fits)
    (ha : members.add path key node = some members') : members'.Fit := by
  refine h.alter ?_ ha
  intro origin inner inner' hinner hchange
  split at hchange
  · cases hchange
  · cases hchange
    exact hinner.snoc key hn

theorem Members.Fit.addAll {entries : List Entry} (h : members.Fit) (he : EntriesFit entries)
    (ha : members.addAll entries = some members') : members'.Fit := by
  induction entries generalizing members with
  | nil =>
    cases ha
    exact h
  | cons entry entries ih =>
    obtain ⟨hentry, hentries⟩ := List.forall_mem_cons.mp he
    obtain ⟨members₁, hfirst, ha⟩ := Option.bind_eq_some_iff.mp ha
    exact ih (h.add hentry hfirst) hentries ha

theorem scansFit_value (depth : Nat) : ScansFit (scanValue depth) := by
  induction depth using Nat.strongRecOn with
  | ind depth ih =>
    intro cs node rest h
    cases cs with
    | nil => simp [scanValue] at h
    | cons c cs =>
      rw [scanValue.eq_def] at h
      simp only at h
      split_ifs at h
      · obtain ⟨⟨text, _⟩, -, h⟩ := Option.map_eq_some_iff.mp h
        cases h
        exact .text text
      · cases depth with
        | zero => cases h
        | succ depth =>
          obtain ⟨⟨items, _⟩, hitems, h⟩ := Option.map_eq_some_iff.mp h
          cases h
          exact .list (fits_scanItems (ih depth (Nat.lt_succ_self depth)) hitems)
      · cases depth with
        | zero => cases h
        | succ depth =>
          simp only at h
          split at h
          · cases h
            exact .table (List.forall_mem_nil _)
          · obtain ⟨⟨entries, _⟩, hentries, h⟩ := Option.bind_eq_some_iff.mp h
            obtain ⟨members, hmembers, h⟩ := Option.bind_eq_some_iff.mp h
            cases h
            have hfits := fits_scanBraces (ih depth (Nat.lt_succ_self depth)) hentries
            exact .table (Members.Fit.addAll (List.forall_mem_nil _) hfits hmembers)
      · obtain ⟨_, -, h⟩ := Option.map_eq_some_iff.mp h
        cases h
        exact .flag true
      · obtain ⟨_, -, h⟩ := Option.map_eq_some_iff.mp h
        cases h
        exact .flag false
      · exact scansFit_number _ _ _ h

/-! Documents. -/

/-- Whether all integers in statements have 64 bits. -/
def StatementsFit (said : List Statement) : Prop :=
  ∀ entry, .inr entry ∈ said → entry.2.2.Fits

theorem statementsFit_scanStatements {said : List Statement}
    (h : scanStatements fuel cs = some said) : StatementsFit said := by
  induction fuel generalizing cs said with
  | zero => cases h
  | succ fuel ih =>
    rw [scanStatements] at h
    split at h
    · cases h
      exact fun entry hentry => absurd hentry List.not_mem_nil
    · obtain ⟨_, -, h⟩ := Option.bind_eq_some_iff.mp h
      exact ih h
    · obtain ⟨_, -, h⟩ := Option.bind_eq_some_iff.mp h
      obtain ⟨said', hsaid, h⟩ := Option.bind_eq_some_iff.mp h
      cases h
      intro entry hentry
      exact ih hsaid entry (by simpa using hentry)
    · split at h
      · exact ih h
      · obtain ⟨⟨entry, _⟩, hentry, h⟩ := Option.bind_eq_some_iff.mp h
        obtain ⟨_, -, h⟩ := Option.bind_eq_some_iff.mp h
        obtain ⟨said', hsaid, h⟩ := Option.bind_eq_some_iff.mp h
        cases h
        intro entry' hmem
        rcases List.mem_cons.mp hmem with heq | hmem
        · cases heq
          exact fits_scanEntry (scansFit_value depthLimit) hentry
        · exact ih hsaid entry' hmem

theorem fits_sections {header : Header} {said : List Statement} (h : StatementsFit said) :
    ∀ s ∈ sections header said, EntriesFit s.entries := by
  induction said generalizing header with
  | nil => exact List.forall_mem_singleton.mpr (List.forall_mem_nil _)
  | cons statement said ih =>
    have hsaid : StatementsFit said := fun entry hentry => h entry (List.mem_cons_of_mem _ hentry)
    cases statement with
    | inl next => exact List.forall_mem_cons.mpr ⟨List.forall_mem_nil _, ih hsaid⟩
    | inr entry =>
      have hentry : entry.2.2.Fits := h entry List.mem_cons_self
      have hrest : ∀ s ∈ sections header said, EntriesFit s.entries := ih hsaid
      rw [sections]
      split
      · rename_i s behind heq
        rw [heq] at hrest
        obtain ⟨hs, hbehind⟩ := List.forall_mem_cons.mp hrest
        exact List.forall_mem_cons.mpr ⟨List.forall_mem_cons.mpr ⟨hentry, hs⟩, hbehind⟩
      · exact List.forall_mem_singleton.mpr (List.forall_mem_singleton.mpr hentry)

theorem Members.Fit.extend {s : Section} (h : members.Fit) (hs : EntriesFit s.entries)
    (he : members.extend s = some members') : members'.Fit := by
  have hadd {before after : Members} (hbefore : before.Fit)
      (ha : before.addAll s.entries = some after) : after.Fit := hbefore.addAll hs ha
  have hnew : Members.Fit [] := List.forall_mem_nil _
  rw [Members.extend] at he
  split at he
  · exact hadd h he
  · refine h.alter ?_ he
    intro _ inner inner' hinner hchange
    split at hchange
    · obtain ⟨after, hafter, hchange⟩ := Option.bind_eq_some_iff.mp hchange
      cases hchange
      exact hinner.snoc _ (.table (hadd hnew hafter))
    · rename_i table hlookup
      obtain ⟨after, hafter, hchange⟩ := Option.bind_eq_some_iff.mp hchange
      cases hchange
      cases hinner.lookup hlookup with
      | table hfits => exact hinner.replace _ (.table (hadd hfits hafter))
    · cases hchange
  · refine h.alter ?_ he
    intro _ inner inner' hinner hchange
    split at hchange
    · obtain ⟨after, hafter, hchange⟩ := Option.bind_eq_some_iff.mp hchange
      cases hchange
      exact hinner.snoc _ (.tables (List.forall_mem_singleton.mpr (hadd hnew hafter)))
    · rename_i items hlookup
      obtain ⟨after, hafter, hchange⟩ := Option.bind_eq_some_iff.mp hchange
      cases hchange
      cases hinner.lookup hlookup with
      | tables hfits =>
        have hafter : after.Fit := hadd hnew hafter
        exact hinner.replace _ (.tables
          (List.forall_mem_append.mpr ⟨hfits, List.forall_mem_singleton.mpr hafter⟩))
    · cases hchange

/-- All integers in a document that is read have 64 bits. -/
theorem fit_of_read? {text : String} (h : read? text = some members) : members.Fit := by
  obtain ⟨said, hsaid, h⟩ := Option.bind_eq_some_iff.mp h
  have hsections : ∀ s ∈ sections .root said, EntriesFit s.entries :=
    fits_sections (statementsFit_scanStatements hsaid)
  have hnew : Members.Fit [] := List.forall_mem_nil _
  generalize sections .root said = behind at h hsections
  generalize ([] : Members) = before at h hnew
  induction behind generalizing before with
  | nil =>
    cases h
    exact hnew
  | cons s behind ih =>
    obtain ⟨hs, hbehind⟩ := List.forall_mem_cons.mp hsections
    obtain ⟨next, hfirst, h⟩ := Option.bind_eq_some_iff.mp h
    exact ih hbehind next h (hnew.extend hs hfirst)

end Gallows.Toml
