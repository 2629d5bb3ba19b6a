import LineCensus.Program
import LineCensus.Proofs.ConfigDocuments
import LineCensus.Proofs.ConfigLines
import LineCensus.Proofs.PlainTrees
import LineCensus.Proofs.Utf8Reading

/-!
# One draft in two formats

A draft whose texts have one line each and no white space around them (`Draft.Portable`) can be kept in a file of
either format (`Draft.KeptAt`): as a JSON document that describes it, or as configuration lines that list it. Both
files are read as this draft (`KeptAt.ofFile_eq`), so a run with the one differs from a run with the other only
where the path of the file is named (`Program.run_eq`).
-/

namespace LineCensus

/-- A file that can be read is there. -/
theorem FileTree.contains_of_read {t : FileTree} {path : Text} {bytes : List UInt8} (h : t.read path = .ok bytes) :
    t.contains path = true := by
  unfold contains
  cases hfind : t.find path with
  | ok n => rfl
  | error e =>
    rw [read, hfind] at h
    cases h

namespace Draft

/-- A draft that both formats can hold. -/
structure Portable (d : Draft) : Prop where
  paired : d.markers.openings.length = d.markers.closings.length
  oneLine : ∀ k : Key, ∀ v ∈ k.list d, '\n' ∉ v
  trimmed : ∀ k : Key, ∀ v ∈ k.list d, Text.trim v = v

/-- The text is a JSON document that describes the draft. -/
def IsDocument (d : Draft) (text : Text) : Prop :=
  ∃ slots fields, Document.Describes d slots fields ∧ Json.Written text (Json.Tree.object fields).bodies

/-- The text consists of configuration lines that list the draft. -/
def IsLayout (d : Draft) (text : Text) : Prop := ∃ es, KeyValue.Layout text es ∧ Lists es d

/-- The file at a path holds the draft, in the format that the path stands for. -/
inductive KeptAt (t : FileTree) (d : Draft) (path : Text) : Prop where
  | json {text : Text} (format : Format.ofPath path = .json) (bytes : t.read path = .ok (Utf8.encode text))
      (document : d.IsDocument text)
  | keyValue {text : Text} (format : Format.ofPath path = .keyValue) (bytes : t.read path = .ok (Utf8.encode text))
      (layout : d.IsLayout text)

variable {t : FileTree} {d : Draft} {path : Text}

/-- What is reported about a configuration file that holds text. -/
def loaded (path : Text) : Log.Record := ⟨.debug, .configuration, "loaded configuration from " ++ path.toString⟩

theorem ofFile_of_read {text : Text} (hread : t.read path = .ok (Utf8.encode text)) :
    ofFile t path = ([loaded path], ofText path text (.ofPath path)) := by
  have htext : textOf t path = .ok text := by simp only [textOf, hread, Utf8.decode?_encode]
  rw [ofFile, htext]
  rfl

/-- A draft is read from the file that holds it. -/
theorem KeptAt.ofFile_eq (h : KeptAt t d path) (hd : d.Portable) : ofFile t path = ([loaded path], .ok d) := by
  cases h with
  | json format bytes document =>
    obtain ⟨slots, fields, hdescribes, hwritten⟩ := document
    rw [ofFile_of_read bytes, format, ofText, hdescribes.ofJson_eq hd.paired hwritten]
    rfl
  | keyValue format bytes layout =>
    obtain ⟨es, hlayout, hlists⟩ := layout
    rw [ofFile_of_read bytes, format, ofText, hlayout.parse_eq hlists hd.trimmed]
    rfl

theorem KeptAt.contains (h : KeptAt t d path) : t.contains path = true := by
  cases h with
  | json _ bytes _ => exact FileTree.contains_of_read bytes
  | keyValue _ bytes _ => exact FileTree.contains_of_read bytes

end Draft

namespace Program

variable {t : FileTree} {d : Draft} {a : Arguments}

/-- A refusal without the path of the configuration. -/
def Refusal.withoutPath : Refusal → Refusal
  | settings _ f => settings [] f
  | failed f => failed f

/-- The settings of a run are those that the draft in its configuration asks for. -/
theorem settings_eq (hd : d.Portable) (h : d.KeptAt t a.config) :
    settings t a = ([Draft.loaded a.config], (a.override d).validate.mapError (.settings a.config)) := by
  have hdraft : draft t a = ([Draft.loaded a.config], .ok d) := by
    rw [draft, if_neg (by simp [h.contains]), h.ofFile_eq hd]
  rw [settings, hdraft]

/-- A run with its configuration in one file is a run with it in another. -/
theorem run_eq (hd : d.Portable) {p q : Text} (hp : d.KeptAt t p) (hq : d.KeptAt t q) (a : Arguments)
    (generatedAt : String) :
    (run t generatedAt { a with config := p }).map (fun r => (r.1.tail, r.2.mapError Refusal.withoutPath)) =
      (run t generatedAt { a with config := q }).map fun r => (r.1.tail, r.2.mapError Refusal.withoutPath) := by
  have hrun : ∀ {path}, d.KeptAt t path →
      (run t generatedAt { a with config := path }).map (fun r => (r.1.tail, r.2.mapError Refusal.withoutPath)) =
        match (a.override d).validate with
        | .error f => .ok ([], .error (.settings [] f))
        | .ok s => (count t a s).map fun r => (r.1, (r.2.map (Report.render generatedAt a.format)).mapError .failed) := by
    intro path hpath
    have hsettings := settings_eq (a := { a with config := path }) hd hpath
    have hvalidate : ({ a with config := path }.override d).validate = (a.override d).validate := rfl
    have hcount : ∀ s, count t { a with config := path } s = count t a s := fun _ => rfl
    rw [run, hsettings, hvalidate]
    cases (a.override d).validate with
    | error f => rfl
    | ok s =>
      simp only [Except.mapError, hcount]
      cases count t a s with
      | error stuck => rfl
      | ok r =>
        obtain ⟨records, census⟩ := r
        cases census <;> rfl
  rw [hrun hp, hrun hq]

/-- **The formats agree**: a draft of texts in one line each, with as many openings as closings, can be written in
both formats, and is read from every file that holds it in either; what is validated is this draft, and runs with
two such files do not differ but in the path of the file. -/
theorem formats_agree {d : Draft} (hd : d.Portable) :
    (∃ text, d.IsDocument text) ∧ (∃ text, d.IsLayout text) ∧
    (∀ t path, d.KeptAt t path → Draft.ofFile t path = ([Draft.loaded path], .ok d)) ∧
    ∀ t p q, d.KeptAt t p → d.KeptAt t q → ∀ (a : Arguments) (generatedAt : String),
      (settings t { a with config := p }).2 = (a.override d).validate.mapError (.settings p) ∧
      (settings t { a with config := q }).2 = (a.override d).validate.mapError (.settings q) ∧
      (run t generatedAt { a with config := p }).map (fun r => (r.1.tail, r.2.mapError Refusal.withoutPath)) =
        (run t generatedAt { a with config := q }).map fun r => (r.1.tail, r.2.mapError Refusal.withoutPath) := by
  refine ⟨?_, ?_, fun t path h => h.ofFile_eq hd, ?_⟩
  · obtain ⟨text, slots, fields, hdescribes, hwritten⟩ := Draft.Document.exists_describes d
    exact ⟨text, slots, fields, hdescribes, hwritten⟩
  · exact Draft.KeyValue.exists_layout_lists hd.oneLine
  · intro t p q hp hq a generatedAt
    refine ⟨?_, ?_, run_eq hd hp hq a generatedAt⟩
    · rw [settings_eq hd hp]
      rfl
    · rw [settings_eq hd hq]
      rfl

/-- Markers and names with characters that mean something in one of the formats. -/
def quirky : Draft :=
  ⟨["größe = \"1\"".toList], [";c".toList], true,
    ⟨["#".toList, "=".toList], ["/*".toList, "\x7b-\\".toList], ["*/".toList, "-\x7d".toList], ["\\".toList]⟩⟩

/-- A tree with two configurations. -/
def configured (document layout : List UInt8) : FileTree :=
  ⟨.directory [("a.json".toList, .file document), ("a.ini".toList, .file layout)], []⟩

theorem formats_agree_quirky : quirky.Portable ∧ ∃ document layout : Text,
    Draft.ofFile (configured (Utf8.encode document) (Utf8.encode layout)) "a.json".toList =
      ([Draft.loaded "a.json".toList], .ok quirky) ∧
    Draft.ofFile (configured (Utf8.encode document) (Utf8.encode layout)) "a.ini".toList =
      ([Draft.loaded "a.ini".toList], .ok quirky) := by
  have hd : quirky.Portable := ⟨rfl, fun k => by cases k <;> decide, fun k => by cases k <;> decide⟩
  have hplain : ∀ b c, (configured b c).top.isPlain := fun _ _ => rfl
  have hdocumentAt : ∀ b c, (configured b c).read "a.json".toList = .ok b := by
    intro b c
    exact FileTree.read_entry (hplain b c) rfl (.head _)
  have hlayoutAt : ∀ b c, (configured b c).read "a.ini".toList = .ok c := by
    intro b c
    exact FileTree.read_entry (hplain b c) rfl (.tail _ (.head _))
  obtain ⟨⟨document, hdocument⟩, ⟨layout, hlayout⟩, hread, -⟩ := formats_agree hd
  refine ⟨hd, document, layout, ?_, ?_⟩
  · exact hread _ _ (.json (by decide) (hdocumentAt _ _) hdocument)
  · exact hread _ _ (.keyValue (by decide) (hlayoutAt _ _) hlayout)

end Program

end LineCensus
