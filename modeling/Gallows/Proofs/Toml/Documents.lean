import Gallows.Proofs.Toml.Numbers
import Gallows.Toml.Reader

/-!
TOML documents of plain lines: headers of tables, values under plain keys and empty lines. Such a
document reads back as its tables, with the values in their order.
-/
namespace Gallows.Toml

variable {cs cs' key value : List Char} {node : Node} {said said' : List Statement}

/-- Whether characters spell a value at the end of a line. -/
structure Spells (value : List Char) (node : Node) : Prop where
  starts : ∀ c ∈ value.head?, isBlank c = false
  scan : ∀ depth rest, scanValue depth (value ++ '\n' :: rest) = some (node, '\n' :: rest)

/-- Whether characters make a key that needs no quotes. -/
structure Bare (key : List Char) : Prop where
  ne_nil : key ≠ []
  bare : ∀ c ∈ key, isBareChar c

theorem bare_iff : Bare key ↔ (!key.isEmpty && key.all isBareChar) = true := by
  rw [Bool.and_eq_true, Bool.not_eq_true', List.isEmpty_eq_false_iff, List.all_eq_true]
  exact ⟨fun h => ⟨h.ne_nil, h.bare⟩, fun h => ⟨h.1, h.2⟩⟩

instance : DecidablePred Bare := fun _ => decidable_of_iff _ bare_iff.symm

/-- Whether characters are lines that make these statements, whatever follows. -/
def Says (cs : List Char) (said : List Statement) : Prop :=
  ∀ (rest : List Char) (fuel : Nat), (cs ++ rest).length < fuel → ∃ fuel', rest.length < fuel' ∧
    scanStatements fuel (cs ++ rest) = (scanStatements fuel' rest).map (said ++ ·)

theorem Says.append (h : Says cs said) (h' : Says cs' said') :
    Says (cs ++ cs') (said ++ said') := by
  intro rest fuel hf
  rw [List.append_assoc] at hf ⊢
  obtain ⟨fuel', hf', he⟩ := h (cs' ++ rest) fuel hf
  obtain ⟨fuel'', hf'', he'⟩ := h' rest fuel' hf'
  refine ⟨fuel'', hf'', ?_⟩
  rw [he, he']
  simp [Function.comp_def]

theorem Says.eq {fuel : Nat} (h : Says cs said) (hf : cs.length < fuel) :
    scanStatements fuel cs = some said := by
  obtain ⟨fuel', hf', he⟩ := h [] fuel (by rwa [List.append_nil])
  obtain ⟨fuel', rfl⟩ : ∃ n, fuel' = n + 1 := Nat.exists_eq_succ_of_ne_zero (by omega)
  rw [List.append_nil] at he
  rw [he]
  simp [scanStatements, dropBlank]

/-- A line that is taken in one step. -/
theorem says_line (hne : cs ≠ [])
    (h : ∀ fuel rest, scanStatements (fuel + 1) (cs ++ rest) =
      (scanStatements fuel rest).map (said ++ ·)) : Says cs said := by
  intro rest fuel hf
  have hpos : 0 < cs.length := List.length_pos_iff.mpr hne
  rw [List.length_append] at hf
  obtain ⟨fuel, rfl⟩ : ∃ n, fuel = n + 1 := Nat.exists_eq_succ_of_ne_zero (by omega)
  exact ⟨fuel, by omega, h fuel rest⟩

/-- An empty line says nothing. -/
theorem says_empty : Says ['\n'] [] := by
  refine says_line (List.cons_ne_nil _ _) fun fuel rest => ?_
  simp [scanStatements, dropBlank, isBlank, newline?]

theorem Bare.dropBlank (h : Bare key) (rest : List Char) :
    dropBlank (key ++ rest) = key ++ rest := by
  obtain ⟨c, cs, rfl⟩ := List.exists_cons_of_ne_nil h.ne_nil
  have hc := h.bare c List.mem_cons_self
  have hspace : c ≠ ' ' := ne_of_class hc (by decide)
  have htab : c ≠ '\t' := ne_of_class hc (by decide)
  simp [Toml.dropBlank, isBlank, hspace, htab]

theorem scanSimpleKey_bare (h : Bare key) {c : Char} (hc : isBareChar c = false)
    (rest : List Char) :
    scanSimpleKey (key ++ c :: rest) = some (String.ofList key, c :: rest) := by
  have htake : (key ++ c :: rest).takeWhile isBareChar = key := by
    simp [List.takeWhile_append_of_pos h.bare, hc]
  have hdrop : (key ++ c :: rest).dropWhile isBareChar = c :: rest := by
    simp [List.dropWhile_append_of_pos h.bare, hc]
  obtain ⟨d, ds, rfl⟩ := List.exists_cons_of_ne_nil h.ne_nil
  have hd := h.bare d List.mem_cons_self
  have hdouble : d ≠ '"' := ne_of_class hd (by decide)
  have hsingle : d ≠ '\'' := ne_of_class hd (by decide)
  rw [List.cons_append] at htake hdrop ⊢
  simp [scanSimpleKey, hdouble, hsingle, htake, hdrop]

/-- A plain key is read up to what follows it. -/
theorem scanKey_bare (h : Bare key) {c d : Char} {rest rest' : List Char}
    (hc : isBareChar c = false) (hrest : dropBlank (c :: rest) = d :: rest') (hd : d ≠ '.') :
    scanKey (key ++ c :: rest) = some (([], String.ofList key), d :: rest') := by
  have hparts : scanParts depthLimit (key ++ c :: rest) =
      some ([String.ofList key], d :: rest') := by
    rw [depthLimit, scanParts, h.dropBlank, scanSimpleKey_bare h hc]
    simp [hrest, hd]
  simp [scanKey, hparts]

/-- A header says that a table starts. -/
theorem says_header (h : Bare key) :
    Says ('[' :: (key ++ [']', '\n'])) [.inl (.table [] (String.ofList key))] := by
  refine says_line (List.cons_ne_nil _ _) fun fuel rest => ?_
  have hkey : scanKey (key ++ ']' :: '\n' :: rest) = _ :=
    scanKey_bare h (by decide) rfl (by decide)
  have hheader : scanHeader (key ++ ']' :: '\n' :: rest) =
      some (.table [] (String.ofList key), rest) := by
    obtain ⟨c, cs, rfl⟩ := List.exists_cons_of_ne_nil h.ne_nil
    have hc : c ≠ '[' := ne_of_class (h.bare c List.mem_cons_self) (by decide)
    rw [List.cons_append] at hkey ⊢
    simp [scanHeader, hc, hkey, expect, lineTail?, dropBlank, isBlank, dropComment, lineEnd?,
      newline?]
  simp [scanStatements, dropBlank, isBlank, hheader, Option.map_eq_bind]

/-- A line with a key and a value says that the value is under the key. -/
theorem says_entry (h : Bare key) (hv : Spells value node) :
    Says (key ++ ' ' :: '=' :: ' ' :: (value ++ ['\n'])) [.inr ([], String.ofList key, node)] := by
  refine says_line (List.append_ne_nil_of_left_ne_nil h.ne_nil _) fun fuel rest => ?_
  have hkey : scanKey (key ++ ' ' :: '=' :: ' ' :: (value ++ '\n' :: rest)) = _ :=
    scanKey_bare h (by decide) rfl (by decide)
  have hvalue : dropBlank (' ' :: (value ++ '\n' :: rest)) = value ++ '\n' :: rest := by
    have hstarts := hv.starts
    cases value with
    | nil => rfl
    | cons c value => simp_all [dropBlank, isBlank]
  have hentry : scanEntry (scanValue depthLimit)
      (key ++ ' ' :: '=' :: ' ' :: (value ++ '\n' :: rest)) =
        some (([], String.ofList key, node), '\n' :: rest) := by
    simp [scanEntry, hkey, expect, hvalue, hv.scan]
  have hblank := h.dropBlank (' ' :: '=' :: ' ' :: (value ++ '\n' :: rest))
  obtain ⟨c, cs, rfl⟩ := List.exists_cons_of_ne_nil h.ne_nil
  have hc := h.bare c List.mem_cons_self
  have hcomment : c ≠ '#' := ne_of_class hc (by decide)
  have hopen : c ≠ '[' := ne_of_class hc (by decide)
  have hline := newline?_cons (ne_of_class hc (by decide)) (ne_of_class hc (by decide))
    (cs ++ ' ' :: '=' :: ' ' :: (value ++ '\n' :: rest))
  have htail : lineTail? ('\n' :: rest) = some rest := rfl
  rw [List.cons_append] at hentry hblank
  generalize String.ofList (c :: cs) = name at hentry ⊢
  simp [scanStatements, hblank, hcomment, hopen, hline, hentry, htail, Option.map_eq_bind]

/-! The values of plain lines. -/

theorem Style.write_eq_cons (style : Style) (text : List Char) :
    ∃ c cs, style.write text = c :: cs ∧ (c = '"' ∨ c = '\'') := by
  cases style with
  | basic | basicLines => exact ⟨'"', _, rfl, .inl rfl⟩
  | literal | literalLines => exact ⟨'\'', _, rfl, .inr rfl⟩

/-- A text that is written as a string is spelled. -/
theorem spells_quote (text : String) : Spells (quote text).toList (.text text) := by
  have hscan := scanString_quote text
  obtain ⟨c, cs, hcs, hc⟩ := (Style.of text.toList).write_eq_cons text.toList
  rw [quote, String.toList_ofList, hcs] at hscan ⊢
  constructor
  · rintro _ ⟨⟩
    obtain rfl | rfl := hc <;> rfl
  · intro depth rest
    have hrest := hscan rest
    rw [List.cons_append] at hrest ⊢
    cases depth <;> simp [scanValue, hc, hrest]

/-- A number of 63 bits is spelled by its digits. -/
theorem spells_toString {n : Nat} (h : n < 0x8000000000000000) :
    Spells (toString n).toList (.integer n) := by
  have hscan := scanNumber_toString h
  have hdigits := (whole_toDigits n).isDigit
  obtain ⟨c, cs, hcs⟩ := List.exists_cons_of_ne_nil (whole_toDigits n).ne_nil
  have hlist : (toString n).toList = c :: cs := Nat.toList_repr.trans hcs
  have hc : c.isDigit := hdigits c (by simp [hcs])
  have hne {d : Char} (hd : d.isDigit = false) : c ≠ d := ne_of_class hc hd
  rw [hlist] at hscan ⊢
  constructor
  · rintro _ ⟨⟩
    simp [isBlank, hne]
  · intro depth rest
    have hrest := hscan rest
    rw [List.cons_append] at hrest ⊢
    cases depth <;> simp [scanValue, hne, hrest]

theorem spells_true : Spells "true".toList (.flag true) :=
  ⟨by simp [isBlank], fun depth rest => by cases depth <;> simp [scanValue]⟩

theorem spells_false : Spells "false".toList (.flag false) :=
  ⟨by simp [isBlank], fun depth rest => by cases depth <;> simp [scanValue]⟩

/-! The tables of a document. -/

/-- Tables and their names. -/
abbrev Tables := List (String × Members)

variable {name : String} {members before : Members} {tables : Tables}

/-- The entries of values under plain keys. -/
def entries (members : Members) : List Entry := members.map fun m => ([], m.1, m.2)

/-- The statements that make tables. -/
def Tables.statements (tables : Tables) : List Statement :=
  tables.flatMap fun t => .inl (.table [] t.1) :: (entries t.2).map .inr

/-- The document that holds tables. -/
def Tables.document (tables : Tables) : Members :=
  tables.map fun t => (t.1, .table .header t.2)

theorem lookup_eq_none (h : name ∉ before.map Prod.fst) : before.lookup name = none := by
  rw [List.lookup_eq_none_iff]
  intro m hm
  simpa using fun he : name = m.1 => h (he ▸ List.mem_map_of_mem hm)

/-- Values under new keys are added one behind the other. -/
theorem addAll_entries (h : ((before ++ members).map Prod.fst).Nodup) :
    Members.addAll (entries members) before = some (before ++ members) := by
  induction members generalizing before with
  | nil => simp [entries, Members.addAll]
  | cons m members ih =>
    have hnew : m.1 ∉ before.map Prod.fst := by
      rw [List.map_append, List.map_cons] at h
      exact fun hm => (List.nodup_append.mp h).2.2 _ hm _ List.mem_cons_self rfl
    have hadd : before.add [] m.1 m.2 = some (before ++ [m]) := by
      simp [Members.add, Members.alter, lookup_eq_none hnew]
    have hrest := ih (show ((before ++ [m] ++ members).map Prod.fst).Nodup by simpa using h)
    rw [entries, Members.addAll] at hrest ⊢
    simpa [hadd] using hrest

theorem sections_entries {header : Header} {s : Section} {behind : List Section}
    (entries : List Entry) (h : sections header said = s :: behind) :
    sections header (entries.map .inr ++ said) =
      { s with entries := entries ++ s.entries } :: behind := by
  induction entries with
  | nil => exact h
  | cons entry entries ih =>
    rw [List.map_cons, List.cons_append, sections, ih]
    rfl

theorem sections_statements (header : Header) (tables : Tables) :
    sections header tables.statements =
      ⟨header, []⟩ :: tables.map fun t => ⟨.table [] t.1, entries t.2⟩ := by
  induction tables generalizing header with
  | nil => rfl
  | cons t tables ih =>
    have hentries := sections_entries (entries t.2) (ih (.table [] t.1))
    rw [List.append_nil] at hentries
    rw [Tables.statements, List.flatMap_cons, List.cons_append, sections, ← Tables.statements,
      hentries]
    rfl

/-- Tables with new names are added one behind the other. -/
theorem foldlM_extend (hnames : ((before ++ tables.document).map Prod.fst).Nodup)
    (hkeys : ∀ t ∈ tables, (t.2.map Prod.fst).Nodup) :
    (tables.map fun t => (⟨.table [] t.1, entries t.2⟩ : Section)).foldlM Members.extend before =
      some (before ++ tables.document) := by
  induction tables generalizing before with
  | nil => simp [Tables.document]
  | cons t tables ih =>
    obtain ⟨ht, htables⟩ := List.forall_mem_cons.mp hkeys
    have hdocument : Tables.document (t :: tables) =
        (t.1, .table .header t.2) :: Tables.document tables := rfl
    rw [hdocument] at hnames ⊢
    have hnew : t.1 ∉ before.map Prod.fst := by
      rw [List.map_append, List.map_cons] at hnames
      exact fun hm => (List.nodup_append.mp hnames).2.2 _ hm _ List.mem_cons_self rfl
    have hvalues : Members.addAll (entries t.2) [] = some t.2 := addAll_entries ht
    have hextend : Members.extend before ⟨.table [] t.1, entries t.2⟩ =
        some (before ++ [(t.1, .table .header t.2)]) := by
      simp [Members.extend, Members.alter, lookup_eq_none hnew, hvalues]
    have hrest := @ih (before ++ [(t.1, .table .header t.2)]) (by simpa using hnames) htables
    rw [List.map_cons, List.foldlM_cons]
    simpa [hextend] using hrest

/-- A text that says tables reads as the document that holds them. -/
theorem read?_of_says {text : String} (h : Says text.toList tables.statements)
    (hmark : dropMark text.toList = text.toList) (hnames : (tables.map Prod.fst).Nodup)
    (hkeys : ∀ t ∈ tables, (t.2.map Prod.fst).Nodup) : read? text = some tables.document := by
  have hroot : Members.extend [] ⟨.root, []⟩ = some [] := rfl
  have hnew : (([] ++ tables.document).map Prod.fst).Nodup := by
    simpa [Tables.document, Function.comp_def] using hnames
  have hextend := foldlM_extend hnew hkeys
  rw [read?, hmark]
  simpa [h.eq (Nat.lt_succ_self _), sections_statements, hroot] using hextend

end Gallows.Toml
