import ScriptMinifier.Proofs.Effects
import ScriptMinifier.Proofs.JsonObjects

/-!
# Settings as text

Settings can be written in part: any of the four fields, in any order, among
entries with other keys. Each field is read back on its own, and the fields met
so far are those of the settings; the others have their defaults. With all four
fields the settings themselves are read back.
-/

namespace ScriptMinifier

open Json

/-! ## Rename maps -/

/-- A name behind all others is bound at the end. -/
theorem insertBinding_last {name new : Text} {bindings : List (Text × Text)}
    (h : ∀ b ∈ bindings, Text.precedes b.1 name = true) :
    insertBinding name new bindings = bindings ++ [(name, new)] := by
  induction bindings with
  | nil => rfl
  | cons b bindings ih =>
      rw [List.forall_mem_cons] at h
      have hbefore : ¬ Text.precedes name b.1 = true := by
        intro hname
        have hself := Text.precedes_trans hname h.1
        rw [Text.precedes_irrefl] at hself
        cases hself
      have hne : name ≠ b.1 := by
        rintro rfl
        rw [Text.precedes_irrefl] at h
        cases h.1
      rw [insertBinding, if_neg hbefore, if_neg hne, ih h.2, List.cons_append]

namespace Settings

theorem reads_readRename (map : RenameMap) (name new : Text) :
    Reads (readRename map name) [[':'], writeString new]
      (map.insert name new) := by
  have hstring := (reads_string "a string" new).map (map.insert name)
  exact reads_colon.bind hstring

def renamesTokens (map : RenameMap) : List Text :=
  objectTokens (map.bindings.map fun b => (b.1, [writeString b.2]))

/-- Bindings in ascending order are each bound behind those before. -/
theorem enters_readRename {map met : RenameMap} {more : List (Text × Text)}
    (h : met.bindings ++ more = map.bindings) :
    Enters readRename met (more.map fun b => (b.1, [writeString b.2])) map := by
  induction more generalizing met with
  | nil =>
      rw [List.append_nil] at h
      have heq : met = map := by
        cases met
        cases map
        congr
      rw [heq]
      exact .nil
  | cons b more ih =>
      refine .cons (reads_readRename met b.1 b.2) (ih ?_)
      have hascending := map.ascending
      rw [← h, Ascending, List.pairwise_append] at hascending
      have hbefore : ∀ b' ∈ met.bindings, Text.precedes b'.1 b.1 = true :=
        fun b' hb' => hascending.2.2 b' hb' b List.mem_cons_self
      show insertBinding b.1 b.2 met.bindings ++ more = _
      rw [insertBinding_last hbefore, List.append_assoc]
      exact h

theorem reads_readRenames (map : RenameMap) :
    Reads readRenames (renamesTokens map) map := by
  apply reads_valueStart (by decide)
  intro s rest hs
  rw [if_pos rfl, run_bind_eq (run_advance _ _)]
  exact reads_object (enters_readRename rfl) s rest hs

/-! ## Fields -/

inductive Field where
  | input
  | output
  | strategy
  | renames
  deriving Repr, DecidableEq

def Field.name : Field → Text
  | .input => "input".toList
  | .output => "output".toList
  | .strategy => "strategy".toList
  | .renames => "renames".toList

/-- The tokens of the value that a field has in the settings. -/
def Field.tokens (s : Settings) : Field → List Text
  | .input => [writeString s.input.text]
  | .output => [s.output.elim "null".toList fun p => writeString p.text]
  | .strategy => [writeString s.strategy.name.toList]
  | .renames => renamesTokens s.renames

theorem reads_readPath (p : Path) : Reads readPath [writeString p.text] p :=
  (reads_string "path string" p.text).map Path.mk

theorem reads_readOptionalPath (p : Option Path) : Reads readOptionalPath
    [p.elim "null".toList fun p => writeString p.text] p := by
  cases p with
  | none =>
      apply reads_peek (by decide)
      intro s rest hs
      cases hs
      rfl
  | some p =>
      apply reads_peek (by decide)
      intro s rest hs
      cases hs
      exact ((reads_readPath p).map some).run_token rest

theorem reads_readStrategy (strategy : Strategy) :
    Reads readStrategy [writeString strategy.name.toList] strategy := by
  have hnamed : strategyNamed strategy.name.toList = pure strategy := by
    cases strategy <;> rfl
  apply reads_valueStart (by decide)
  intro s rest hs
  cases hs
  show (advance >>= fun _ => stringBody >>= strategyNamed).run
    (writeString strategy.name.toList ++ rest) = _
  rw [run_bind_eq (run_advance_writeString _ rest),
    run_bind_eq (run_stringBody _ rest), hnamed]
  rfl

/-- A field that has not been met is read. -/
theorem reads_once {α β : Type} (name : String) {old : Option α}
    (hold : old = none) {read : Reader β} {tokens : List Text} {value : β}
    (h : Reads read tokens value) :
    Reads (once name old read) ([':'] :: tokens) value := by
  rw [once, hold]
  exact reads_colon.bind h

/-! ## Entries -/

/-- An entry of a settings object. Other keys have strings behind them. -/
inductive Item where
  | field (f : Field)
  | other (key value : Text) (hkey : ∀ f : Field, key ≠ f.name)

def Item.field? : Item → Option Field
  | .field f => some f
  | .other .. => none

/-- The fields among the entries. -/
def Item.fields (items : List Item) : List Field := items.filterMap Item.field?

/-- The key of an entry and the tokens of its value. -/
def Item.entry (s : Settings) : Item → Text × List Text
  | .field f => (f.name, f.tokens s)
  | .other key value _ => (key, [writeString value])

/-- The settings in these fields, the defaults elsewhere. -/
def keep (s : Settings) (fields : List Field) : Settings where
  input := if .input ∈ fields then s.input else ({} : Settings).input
  output := if .output ∈ fields then s.output else ({} : Settings).output
  strategy :=
    if .strategy ∈ fields then s.strategy else ({} : Settings).strategy
  renames := if .renames ∈ fields then s.renames else ({} : Settings).renames

/-- What has been met when these fields have been read. -/
def met (s : Settings) (fields : List Field) : Fields where
  input := if .input ∈ fields then some s.input else none
  output := if .output ∈ fields then some s.output else none
  strategy := if .strategy ∈ fields then some s.strategy else none
  renames := if .renames ∈ fields then some s.renames else none

theorem settings_met (s : Settings) (fields : List Field) :
    (s.met fields).settings = s.keep fields := by
  have hgetD {α : Type} (p : Prop) [Decidable p] (value default : α) :
      (if p then some value else none).getD default =
        if p then value else default := by
    split <;> rfl
  simp only [met, Fields.settings, hgetD]
  rfl

theorem met_concat (s : Settings) (fields : List Field) (f : Field) :
    s.met (fields ++ [f]) = match f with
      | .input => { s.met fields with input := some s.input }
      | .output => { s.met fields with output := some s.output }
      | .strategy => { s.met fields with strategy := some s.strategy }
      | .renames => { s.met fields with renames := some s.renames } := by
  cases f <;> simp [met]

/-- One entry is read, unless its field has been met before. -/
theorem reads_readField (s : Settings) (fields : List Field) (item : Item)
    (h : ∀ f ∈ item.field?, f ∉ fields) :
    Reads (readField (s.met fields) (item.entry s).1)
      ([':'] :: (item.entry s).2) (s.met (fields ++ item.field?.toList)) := by
  cases item with
  | other key value hkey =>
      have hinput : key ≠ "input".toList := hkey .input
      have houtput : key ≠ "output".toList := hkey .output
      have hstrategy : key ≠ "strategy".toList := hkey .strategy
      have hrenames : key ≠ "renames".toList := hkey .renames
      show Reads (readField (s.met fields) key) [[':'], writeString value]
        (s.met (fields ++ []))
      rw [List.append_nil, readField, if_neg hinput, if_neg houtput,
        if_neg hstrategy, if_neg hrenames]
      exact reads_colon.bind
        ((reads_skipValue value).map fun _ => s.met fields)
  | field f =>
      have hf : f ∉ fields := h f rfl
      show Reads _ _ (s.met (fields ++ [f]))
      rw [met_concat]
      cases f with
      | input =>
          exact (reads_once "input" (if_neg hf) (reads_readPath s.input)).map
            fun p => { s.met fields with input := some p }
      | output =>
          exact (reads_once "output" (if_neg hf)
            (reads_readOptionalPath s.output)).map
            fun p => { s.met fields with output := some p }
      | strategy =>
          exact (reads_once "strategy" (if_neg hf)
            (reads_readStrategy s.strategy)).map
            fun strategy => { s.met fields with strategy := some strategy }
      | renames =>
          exact (reads_once "renames" (if_neg hf)
            (reads_readRenames s.renames)).map
            fun map => { s.met fields with renames := some map }

theorem enters_readField (s : Settings) (fields : List Field)
    {items : List Item} (h : (fields ++ Item.fields items).Nodup) :
    Enters readField (s.met fields) (items.map (Item.entry s))
      (s.met (fields ++ Item.fields items)) := by
  induction items generalizing fields with
  | nil =>
      rw [Item.fields, List.filterMap_nil, List.append_nil]
      exact .nil
  | cons item items ih =>
      have hfields : Item.fields (item :: items) =
          item.field?.toList ++ Item.fields items := by
        cases item <;> rfl
      rw [hfields, ← List.append_assoc] at h ⊢
      refine .cons (reads_readField s fields item ?_) (ih _ h)
      intro f hf hmem
      have hnodup := List.nodup_append.mp (List.nodup_append.mp h).1
      exact hnodup.2.2 f hmem f
        (by rw [hf]; exact List.mem_singleton_self f) rfl

/-! ## Whole texts -/

theorem ofJson_eq_of_written (s : Settings) {items : List Item} {text : Text}
    (hfields : (Item.fields items).Nodup)
    (htext : Written (objectTokens (items.map (Item.entry s))) text) :
    ofJson text = .ok (s.keep (Item.fields items)) := by
  have hobject := reads_object (enters_readField s [] hfields)
  rw [List.nil_append] at hobject
  have hsettings := hobject.map Fields.settings
  rw [settings_met] at hsettings
  refine Reads.whole_eq ?_ htext
  apply reads_valueStart (by decide)
  intro t rest ht
  rw [if_pos rfl, run_bind_eq (run_advance _ _)]
  exact hsettings t rest ht

/-- All four fields, as the writer has them. -/
def allItems : List Item :=
  [.field .input, .field .output, .field .strategy, .field .renames]

theorem flatten_allItems (s : Settings) :
    (objectTokens (allItems.map (Item.entry s))).flatten = s.toJson := by
  have hrenames : (renamesTokens s.renames).flatten =
      writeRenames s.renames := by
    rw [renamesTokens, flatten_objectTokens, writeRenames, List.map_map]
    simp [Function.comp_def]
  rw [flatten_objectTokens]
  show writeObject
    [(Field.input.name, [writeString s.input.text].flatten),
     (Field.output.name,
      [s.output.elim "null".toList fun p => writeString p.text].flatten),
     (Field.strategy.name, [writeString s.strategy.name.toList].flatten),
     (Field.renames.name, (renamesTokens s.renames).flatten)] = _
  rw [hrenames]
  simp only [List.flatten_singleton]
  rfl

/-- **Settings in a file, and arguments over them.** Any of the four fields,
each at most once and in any order, among entries with other keys: the settings
are read back in these fields and have their defaults in the others. The form
with all four fields gives the settings themselves. Arguments then replace the
fields that they name and nothing else. -/
theorem ofJson_written (s : Settings) (items : List Item) (text : Text)
    (hfields : (Item.fields items).Nodup)
    (htext : Written (objectTokens (items.map (Item.entry s))) text) :
    ofJson text = .ok (s.keep (Item.fields items)) ∧
    ofJson s.toJson = .ok s ∧
    ∀ (a : Arguments) (host : Host) (path : Path), a.config = some path →
      host.files.Holds path text →
      (a.resolve.runOn host).1 = .ok
        { input := a.input.getD (s.keep (Item.fields items)).input
          output := a.output.or (s.keep (Item.fields items)).output
          strategy :=
            a.strategy.getD (s.keep (Item.fields items)).strategy
          renames := (s.keep (Item.fields items)).renames } := by
  have hloaded := ofJson_eq_of_written s hfields htext
  refine ⟨hloaded, ?_, ?_⟩
  · have hall := written_flatten (objectTokens (allItems.map (Item.entry s)))
    rw [flatten_allItems] at hall
    exact ofJson_eq_of_written s (by decide) hall
  · intro a host path hconfig hholds
    have hbase := Arguments.Base.loaded hconfig hholds hloaded
    obtain ⟨errors, hresolve⟩ := answers_resolve a host
    rw [hresolve]
    exact settingsIn_eq_ok_iff.mpr ⟨_, hbase, rfl⟩

def quotedSettings : Settings where
  input := .ofString "src/\"a\".js"
  output := some (.ofString "out\n.js")
  strategy := .textual
  renames := .ofList [("alpha".toList, "α".toList)]

def quotedItems : List Item :=
  [.field .renames, .other "note".toList "\t".toList (by rintro ⟨⟩ <;> decide),
    .field .input]

def quotedText : Text :=
  "\x7b\"renames\":\x7b\"alpha\":\"α\"\x7d,".toList ++
  "\"note\":\"\\t\",\"input\":\"src/\\\"a\\\".js\"\x7d\n".toList

theorem ofJson_written_quotedText :
    ofJson quotedText = .ok { quotedSettings with
      output := none
      strategy := .lexical } ∧
    (({ config := some (.ofString "jm.json"), strategy := some .textual } :
        Arguments).resolve.runOn { files := { entries :=
          [([[], "jm.json".toList], .file (encodeUtf8 quotedText))] } }).1 =
      .ok { quotedSettings with output := none } := by
  have hblanks : AreBlanks ['\n'] := by
    intro c hc
    rw [List.mem_singleton.mp hc]
    rfl
  have htext : Written (objectTokens (quotedItems.map
      (Item.entry quotedSettings))) quotedText :=
    ⟨_, ['\n'], spaced_flatten _, hblanks, by decide +kernel⟩
  obtain ⟨hloaded, -, hresolved⟩ :=
    ofJson_written quotedSettings quotedItems quotedText (by decide) htext
  exact ⟨hloaded, hresolved _ _ _ rfl rfl⟩

end Settings

end ScriptMinifier
