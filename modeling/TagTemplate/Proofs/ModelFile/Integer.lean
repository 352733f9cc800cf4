import TagTemplate.ModelFile.Load
import TagTemplate.Proofs.Json.Integer
import TagTemplate.Proofs.Json.Object
import TagTemplate.Proofs.ModelFile.Document
import TagTemplate.Proofs.Yaml.Expansion
import TagTemplate.Proofs.Yaml.Integer

/-!
# Integers in model files

What text an integer of a model file gives to its name. In YAML, where a file is loaded, it is
always a numeral of the integer. In JSON it is the numeral if the integer has 64 bits, and there is
no model if it has more, except that integers just below the range are taken for the double at its
end.
-/
namespace TagTemplate.ModelFile

section Text

variable {name text : String} {value : Value} {number : Number}

theorem isScalar_of_valueText (h : valueText name value = .ok text) : Json.IsScalar value := by
  cases value with
  | sequence items => cases h
  | mapping entries => cases h
  | _ => trivial

theorem valueText_number_eq_ok_iff : valueText name (.number number) = .ok text ↔
    number.isExact = true ∧ number.text = text := by
  rw [valueText]
  split_ifs with h <;> simp [h]

end Text

section Json

abbrev Spaces := {text : List Char // Json.AllSpace text}

/-- An entry of a JSON object that makes a model on its own. -/
structure LoadedEntry where
  text : List Char
  key : String
  value : Value
  reads : Json.readDocument (Json.object [text]) = .ok [(key, value)]
  loads : ∃ file, ofJson (String.ofList (Json.object [text])) = .ok file

/-- An entry of a JSON object with a tag name as key and an integer as value. The key may be written
with escapes. -/
structure IntegerEntry where
  name : String
  number : Int
  /-- The key as it is written, with its closing quote. -/
  quoted : List Char
  beforeKey : Spaces
  afterKey : Spaces
  beforeNumber : Spaces
  afterNumber : Spaces
  isTagName_name : isTagName name.toList = true
  read_quoted : Json.Text.read quoted = .ok (name, [])

def IntegerEntry.text (e : IntegerEntry) : List Char :=
  e.beforeKey ++ '"' :: (e.quoted ++ (e.afterKey ++ ':' ::
    (e.beforeNumber ++ ((toString e.number).toList ++ e.afterNumber))))

/-- A JSON object among whose entries one is an integer, no later one has the same key, and all
others make models on their own. -/
structure IntegerDocument where
  before : List LoadedEntry
  entry : IntegerEntry
  after : List LoadedEntry
  leading : Spaces
  trailing : Spaces
  key_ne : ∀ e ∈ after, e.key ≠ entry.name

def IntegerDocument.text (d : IntegerDocument) : String :=
  String.ofList (d.leading ++ (Json.object (d.before.map LoadedEntry.text ++
    d.entry.text :: d.after.map LoadedEntry.text) ++ d.trailing))

theorem ofJson_ofList (text : List Char) :
    ofJson (String.ofList text) =
      match Json.readDocument text with
      | .ok document => ofDocument document
      | .error fault => .error (.json fault) := by
  cases hread : Json.readDocument text <;> simp [ofJson, hread]

theorem ofJson_eq_ok_iff {text : List Char} {file : ModelFile} :
    ofJson (String.ofList text) = .ok file ↔
      ∃ document, Json.readDocument text = .ok document ∧ ofDocument document = .ok file := by
  rw [ofJson_ofList]
  cases Json.readDocument text <;> simp

def LoadedEntry.item (e : LoadedEntry) : String × Value := (e.key, e.value)

theorem LoadedEntry.exists_checkEntry (e : LoadedEntry) :
    ∃ checked, checkEntry e.item = .ok checked := by
  obtain ⟨file, hfile⟩ := e.loads
  obtain ⟨document, hread, hdocument⟩ := ofJson_eq_ok_iff.1 hfile
  cases Except.ok.inj (e.reads.symm.trans hread)
  exact exists_ofDocument_singleton_iff.1 ⟨file, hdocument⟩

theorem LoadedEntry.yields (e : LoadedEntry) : Json.Yields e.text (.ok e.item) := by
  obtain ⟨checked, hchecked⟩ := e.exists_checkEntry
  exact Json.yields_of_readDocument
    (isScalar_of_valueText (checkEntry_eq_ok_iff.1 hchecked).2.2) e.reads

def IntegerEntry.result (e : IntegerEntry) : Except Json.Fault (String × Value) :=
  (Json.numberResult (.ofInt e.number)).map fun value => (e.name, value)

theorem IntegerEntry.yields (e : IntegerEntry) : Json.Yields e.text e.result := by
  refine ⟨e.beforeKey, e.quoted ++ (e.afterKey ++ ':' :: (e.beforeNumber ++
    (toString e.number).toList)), e.afterNumber, e.beforeKey.2, e.afterNumber.2, ?_, ?_⟩
  · simp [IntegerEntry.text]
  · intro rest hrest
    have htext : e.quoted ++ (e.afterKey.1 ++ ':' :: (e.beforeNumber.1 ++
        (toString e.number).toList)) ++ rest = e.quoted ++ (e.afterKey.1 ++ ':' ::
          (e.beforeNumber.1 ++ ((toString e.number).toList ++ rest))) := by simp
    rw [htext, Json.readTopEntry, Json.readEntry_append e.read_quoted e.afterKey.2,
      Json.readValue_toString e.number e.beforeNumber.2 hrest, Result.map_map, IntegerEntry.result,
      Result.map_map]

section Document

variable (d : IntegerDocument)

def IntegerDocument.items (entry : String × Value) : Document :=
  d.before.map LoadedEntry.item ++ entry :: d.after.map LoadedEntry.item

theorem IntegerDocument.readDocument_eq :
    Json.readDocument (d.leading ++ (Json.object (d.before.map LoadedEntry.text ++
      d.entry.text :: d.after.map LoadedEntry.text) ++ d.trailing)) =
      d.entry.result.map d.items := by
  have hothers : ∀ entries : List LoadedEntry, List.Forall₂ Json.Yields
      (entries.map LoadedEntry.text) ((entries.map LoadedEntry.item).map .ok) := by
    intro entries
    rw [List.map_map, List.forall₂_map_left_iff, List.forall₂_map_right_iff]
    exact List.forall₂_same.2 fun e _ => e.yields
  have hentries := List.rel_append (hothers d.before) (.cons d.entry.yields (hothers d.after))
  rw [Json.readDocument_object hentries (by simp) d.leading.2 d.trailing.2,
    Result.mapM_id_append_cons]
  rfl

theorem IntegerDocument.ofJson_eq_ok_iff {file : ModelFile} :
    ofJson d.text = .ok file ↔ ∃ x, (Json.Numeral.ofInt d.entry.number).value? = some x ∧
      ofDocument (d.items (d.entry.name, .number x)) = .ok file := by
  rw [text, ModelFile.ofJson_eq_ok_iff, d.readDocument_eq, IntegerEntry.result, Result.map_map,
    Json.numberResult]
  cases (Json.Numeral.ofInt d.entry.number).value? <;> simp

theorem IntegerDocument.key_ne_of_mem : ∀ e ∈ d.after.map LoadedEntry.item, e.1 ≠ d.entry.name := by
  intro e he
  obtain ⟨loaded, hloaded, rfl⟩ := List.mem_map.1 he
  exact d.key_ne loaded hloaded

theorem exists_checkEntry_of_mem {entries : List LoadedEntry} :
    ∀ e ∈ entries.map LoadedEntry.item, ∃ checked, checkEntry e = .ok checked := by
  intro e he
  obtain ⟨loaded, -, rfl⟩ := List.mem_map.1 he
  exact loaded.exists_checkEntry

/-- Whether the object is a model depends on nothing but what the integer is read as. -/
theorem IntegerDocument.exists_ofJson_iff : (∃ file, ofJson d.text = .ok file) ↔
    ∃ x, (Json.Numeral.ofInt d.entry.number).value? = some x ∧ x.isExact = true := by
  simp only [d.ofJson_eq_ok_iff]
  rw [exists_comm]
  simp only [exists_and_left]
  refine exists_congr fun x => and_congr_right fun _ => ?_
  rw [IntegerDocument.items, exists_ofDocument_append_cons_iff d.entry.isTagName_name
    exists_checkEntry_of_mem exists_checkEntry_of_mem d.key_ne_of_mem]
  simp only [valueText_number_eq_ok_iff, exists_and_left, exists_eq', and_true]

theorem IntegerDocument.lookup_of_ofJson {file : ModelFile} (h : ofJson d.text = .ok file) :
    ∃ x, (Json.Numeral.ofInt d.entry.number).value? = some x ∧ x.isExact = true ∧
      file.values.lookup d.entry.name = some x.text := by
  obtain ⟨x, hx, hdocument⟩ := d.ofJson_eq_ok_iff.1 h
  obtain ⟨text, htext, hlookup⟩ := lookup_of_ofDocument hdocument d.key_ne_of_mem
  obtain ⟨hexact, rfl⟩ := valueText_number_eq_ok_iff.1 htext
  exact ⟨x, hx, hexact, hlookup⟩

theorem IntegerDocument.lookup_of_word {file : ModelFile} (hge : -2 ^ 63 ≤ d.entry.number)
    (hlt : d.entry.number < 2 ^ 64) (h : ofJson d.text = .ok file) :
    file.values.lookup d.entry.name = some (toString d.entry.number) := by
  obtain ⟨x, hx, -, hlookup⟩ := d.lookup_of_ofJson h
  cases Option.some.inj ((Json.Numeral.value?_ofInt hge hlt).symm.trans hx)
  exact hlookup

/-- The integers that a double just below the range of 64 bits cannot be told from. -/
theorem IntegerDocument.exists_ofJson_of_near (hge : -2 ^ 63 - 2 ^ 10 ≤ d.entry.number)
    (hlt : d.entry.number < -2 ^ 63) : ∃ file, ofJson d.text = .ok file ∧
      file.values.lookup d.entry.name = some "-9.223372036854776e+18" := by
  have hvalue := Json.Numeral.value?_ofInt_of_near hge hlt
  have hexact : (Number.double Json.Numeral.leastWord).isExact = true := by decide +kernel
  obtain ⟨file, hfile⟩ := d.exists_ofJson_iff.2 ⟨_, hvalue, hexact⟩
  obtain ⟨x, hx, -, hlookup⟩ := d.lookup_of_ofJson hfile
  cases Option.some.inj (hvalue.symm.trans hx)
  exact ⟨file, hfile, Json.Numeral.text_leastWord ▸ hlookup⟩

theorem IntegerDocument.exists_ofJson_iff_word
    (hnear : ¬(-2 ^ 63 - 2 ^ 10 ≤ d.entry.number ∧ d.entry.number < -2 ^ 63)) :
    (∃ file, ofJson d.text = .ok file) ↔ -2 ^ 63 ≤ d.entry.number ∧ d.entry.number < 2 ^ 64 := by
  rw [d.exists_ofJson_iff]
  constructor
  · rintro ⟨x, hx, hexact⟩
    by_contra hword
    have hfar : d.entry.number < -2 ^ 63 - 2 ^ 10 ∨ 2 ^ 64 ≤ d.entry.number := by omega
    exact absurd hexact (by simp [Json.Numeral.isExact_eq_false_of_far hfar hx])
  · rintro ⟨hge, hlt⟩
    exact ⟨_, Json.Numeral.value?_ofInt hge hlt, rfl⟩

end Document

end Json

section Yaml

/-- A YAML text with a mapping as root, among whose entries one has a plain decimal integer without
a tag as value, and no later one has the same key. Aliases stand for what they name. -/
structure IntegerMapping where
  text : String
  root : Yaml.Node
  properties : Yaml.Properties
  before : List (Yaml.Node × Yaml.Node)
  key : Yaml.Node
  value : Yaml.Node
  after : List (Yaml.Node × Yaml.Node)
  name : String
  keyProperties : Yaml.Properties
  keyPlain : Bool
  literal : String
  number : Int
  anchor : Option Nat
  rootOf_text : Yaml.rootOf text.toList = .ok (some root)
  root_eq : root = .mapping properties (before ++ (key, value) :: after)
  meant_key : (Yaml.Anchors.of root).meant key = some (.scalar keyProperties keyPlain name)
  meant_value : (Yaml.Anchors.of root).meant value = some (.scalar ⟨anchor, none⟩ true literal)
  isDecimal_literal : Text.IsDecimal literal.toList number
  key_ne : ∀ e ∈ after, ∀ laterProperties laterPlain,
    (Yaml.Anchors.of root).meant e.1 ≠ some (.scalar laterProperties laterPlain name)

theorem isDecimal_of_valueText {name literal text : String} {value : Value} {n : Int}
    (h : Text.IsDecimal literal.toList n) (hvalue : Yaml.resolve literal = .ok value)
    (htext : valueText name value = .ok text) : Text.IsDecimal text.toList n := by
  rcases Yaml.resolve_of_isDecimal h hvalue with rfl | rfl | ⟨x, rfl, hexact⟩
  · obtain ⟨-, rfl⟩ := valueText_number_eq_ok_iff.1 htext
    exact Text.isDecimal_toString n
  · cases htext
    exact h
  · obtain ⟨hexact', -⟩ := valueText_number_eq_ok_iff.1 htext
    exact absurd hexact' (by simp [hexact])

theorem IntegerMapping.lookup_of_ofYaml (m : IntegerMapping) {file : ModelFile}
    (h : ofYaml m.text = .ok file) :
    ∃ stored, file.values.lookup m.name = some stored ∧ Text.IsDecimal stored.toList m.number := by
  rw [ofYaml, Yaml.readDocument_eq, m.rootOf_text, Result.ok_bind, Option.map_some,
    Option.getD_some] at h
  cases hentries : Yaml.entriesOfRoot m.root with
  | error fault =>
    rw [hentries] at h
    cases h
  | ok document =>
    rw [hentries] at h
    have hreads := Yaml.forall₂_of_entriesOfRoot (m.root_eq ▸ hentries)
    rw [← m.root_eq] at hreads
    obtain ⟨before, ⟨name, value⟩, after, rfl, ⟨⟨_, _, hkey⟩, hvalue⟩, hafter⟩ :=
      Result.forall₂_append_cons_left hreads
    cases Option.some.inj (m.meant_key.symm.trans hkey)
    have hlast : ∀ e ∈ after, e.1 ≠ m.name := by
      intro e he hname
      obtain ⟨nodes, hnodes, ⟨laterProperties, laterPlain, hlater⟩, -⟩ :=
        Result.exists_left_of_mem hafter he
      rw [hname] at hlater
      exact m.key_ne nodes hnodes laterProperties laterPlain hlater
    obtain ⟨stored, htext, hlookup⟩ := lookup_of_ofDocument h hlast
    refine ⟨stored, hlookup, ?_⟩
    exact isDecimal_of_valueText m.isDecimal_literal (hvalue _ _ _ m.meant_value) htext

end Yaml

/-- A JSON integer keeps its value or makes the object no model, just if it is none of those that
are rounded to the least double of the range. A YAML integer always does. -/
theorem integer_kept_iff_not_near (d : IntegerDocument) (m : IntegerMapping) :
    ((((∃ file, ofJson d.text = .ok file) ↔
          -2 ^ 63 ≤ d.entry.number ∧ d.entry.number ≤ 2 ^ 64 - 1) ∧
        ∀ file, ofJson d.text = .ok file →
          file.values.lookup d.entry.name = some (toString d.entry.number)) ↔
      ¬(-2 ^ 63 - 2 ^ 10 ≤ d.entry.number ∧ d.entry.number < -2 ^ 63)) ∧
    (-2 ^ 63 - 2 ^ 10 ≤ d.entry.number ∧ d.entry.number < -2 ^ 63 →
      ∃ file, ofJson d.text = .ok file ∧
        file.values.lookup d.entry.name = some "-9.223372036854776e+18") ∧
    ∀ file, ofYaml m.text = .ok file →
      ∃ stored, file.values.lookup m.name = some stored ∧
        Text.IsDecimal stored.toList m.number := by
  have hlast : d.entry.number ≤ 2 ^ 64 - 1 ↔ d.entry.number < 2 ^ 64 := by omega
  rw [hlast]
  refine ⟨⟨fun hkept hnear => ?_, fun hnear => ?_⟩, fun hnear => ?_, fun file => m.lookup_of_ofYaml⟩
  · obtain ⟨file, hfile, -⟩ := d.exists_ofJson_of_near hnear.1 hnear.2
    have hword := hkept.1.1 ⟨file, hfile⟩
    omega
  · have hword := d.exists_ofJson_iff_word hnear
    refine ⟨hword, fun file hfile => ?_⟩
    obtain ⟨hge, hlt⟩ := hword.1 ⟨file, hfile⟩
    exact d.lookup_of_word hge hlt hfile
  · exact d.exists_ofJson_of_near hnear.1 hnear.2

section Sample

/-- The text `"n":"old"`, which is shadowed by a later entry. -/
def shadowedEntry : LoadedEntry where
  text := ['"', 'n', '"', ':', '"', 'o', 'l', 'd', '"']
  key := "n"
  value := .string "old"
  reads := rfl
  loads := ⟨_, rfl⟩

def otherEntry : LoadedEntry where
  text := ['"', 'm', '"', ':', 't', 'r', 'u', 'e']
  key := "m"
  value := .bool true
  reads := rfl
  loads := ⟨_, rfl⟩

def loneInteger (number : Int) : IntegerDocument where
  before := []
  entry :=
    { name := "n"
      number := number
      quoted := ['n', '"']
      beforeKey := ⟨[], by decide⟩
      afterKey := ⟨[], by decide⟩
      beforeNumber := ⟨[' '], by decide⟩
      afterNumber := ⟨[], by decide⟩
      isTagName_name := by decide
      read_quoted := rfl }
  after := []
  leading := ⟨[], by decide⟩
  trailing := ⟨[], by decide⟩
  key_ne := by simp

def sampleDocument (number : Int) : IntegerDocument :=
  { loneInteger number with
    before := [shadowedEntry]
    after := [otherEntry]
    key_ne := by simp [otherEntry, loneInteger] }

/-- A double takes the place of the first integer below the range. -/
theorem not_integer_kept_below :
    (loneInteger (-9223372036854775809)).text = "\x7b\"n\": -9223372036854775809\x7d" ∧
      ¬∀ d : IntegerDocument, ((∃ file, ofJson d.text = .ok file) ↔
        -2 ^ 63 ≤ d.entry.number ∧ d.entry.number ≤ 2 ^ 64 - 1) := by
  refine ⟨by decide +kernel, fun h => ?_⟩
  obtain ⟨file, hfile, -⟩ :=
    (loneInteger (-9223372036854775809)).exists_ofJson_of_near (by decide) (by decide)
  have hrange := ((h _).1 ⟨file, hfile⟩).1
  exact absurd hrange (by decide)

def sampleMapping : IntegerMapping where
  text := "n: +5"
  root := .mapping ⟨none, none⟩ [(.scalar ⟨none, none⟩ true "n", .scalar ⟨none, none⟩ true "+5")]
  properties := ⟨none, none⟩
  before := []
  key := .scalar ⟨none, none⟩ true "n"
  value := .scalar ⟨none, none⟩ true "+5"
  after := []
  name := "n"
  keyProperties := ⟨none, none⟩
  keyPlain := true
  literal := "+5"
  number := 5
  anchor := none
  rootOf_text := by
    have htokens : Yaml.tokens "n: +5".toList = .ok
        [.blockMappingStart, .key, .scalar true "n", .value, .scalar true "+5", .blockEnd] := by
      decide +kernel
    rw [Yaml.rootOf, if_neg (by decide +kernel), htokens]
    rfl
  root_eq := rfl
  meant_key := rfl
  meant_value := rfl
  isDecimal_literal := .plus 5
  key_ne := by simp

theorem exists_ofYaml_sampleMapping : ∃ file, ofYaml sampleMapping.text = .ok file := by
  have hok : (ofYaml sampleMapping.text).isOk = true := by decide +kernel
  cases hfile : ofYaml sampleMapping.text with
  | error e =>
    rw [hfile] at hok
    cases hok
  | ok file => exact ⟨file, rfl⟩

theorem integer_kept_iff_not_near_sample :
    (∃ file, ofJson (sampleDocument 7).text = .ok file ∧ file.values.lookup "n" = some "7") ∧
      (∃ file, ofJson (sampleDocument (-9223372036854775809)).text = .ok file ∧
        file.values.lookup "n" = some "-9.223372036854776e+18") ∧
      ∃ file, ofYaml "n: +5" = .ok file ∧ ∃ stored, file.values.lookup "n" = some stored ∧
        Text.IsDecimal stored.toList 5 := by
  have hword := integer_kept_iff_not_near (sampleDocument 7) sampleMapping
  have hnear := integer_kept_iff_not_near (sampleDocument (-9223372036854775809)) sampleMapping
  refine ⟨?_, hnear.2.1 (by decide), ?_⟩
  · obtain ⟨hloads, hkept⟩ := hword.1.2 (by decide)
    obtain ⟨file, hfile⟩ := hloads.2 (by decide)
    exact ⟨file, hfile, hkept file hfile⟩
  · obtain ⟨file, hfile⟩ := exists_ofYaml_sampleMapping
    exact ⟨file, hfile, hword.2.2 file hfile⟩

end Sample

end TagTemplate.ModelFile
