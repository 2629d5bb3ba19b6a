import LineCensus.Proofs.ConfigFormats
import LineCensus.Proofs.Validation

/-!
# Arguments in place of a configuration

Arguments that say where to search and for what replace both lists of the configuration; nothing is mixed. What a run
then does is ruled by the arguments, the markers and the flag alone (`Arguments.ruling`): every configuration that can
be loaded, and a missing one, comes to that (`Program.settings_overridden`).
-/

namespace LineCensus

namespace Arguments

/-- What is wrong with arguments that say where to search and for what, and with these markers. -/
def problems (a : Arguments) (m : Markers.Raw) : List Draft.Problem :=
  m.problems.map .marker ++ if ∃ e ∈ a.extensions, Draft.plainExtension e = [] then [.emptyExtension] else []

/-- What such arguments come to with these markers and this flag: settings, or all problems. -/
def ruling (a : Arguments) (flag : Bool) (m : Markers.Raw) : Except (List Draft.Problem) Settings :=
  if a.problems m = [] then .ok ⟨a.directories, a.extensions.map Draft.plainExtension, flag, m.toMarkers⟩
  else .error (a.problems m)

variable {a : Arguments}

theorem problems_override (hdirectories : a.directories ≠ []) (hextensions : a.extensions ≠ []) (d : Draft) :
    (a.override d).problems = a.problems d.markers := by
  have hempty : (a.override d).plainExtensions.contains [] = true ↔
      ∃ e ∈ a.extensions, Draft.plainExtension e = [] := by
    rw [Draft.plainExtensions_contains_nil, override, if_neg hextensions]
  simp only [Draft.problems, problems, hempty]
  simp only [override, if_neg hdirectories, if_neg hextensions, List.append_nil]

/-- The lists of the draft are replaced, so they are not looked at. -/
theorem validate_override (hdirectories : a.directories ≠ []) (hextensions : a.extensions ≠ []) (d : Draft) :
    (a.override d).validate = (a.ruling (d.isRecursive || a.isRecursive) d.markers).mapError Draft.refusal := by
  rw [Draft.validate, problems_override hdirectories hextensions, ruling]
  split
  · simp only [Draft.settings, Draft.plainExtensions, override, if_neg hdirectories, if_neg hextensions]
    rfl
  · rfl

end Arguments

namespace Draft

variable {t : FileTree} {path : Text}

theorem contains_of_ofFile {records : List Log.Record} {d : Draft} (h : ofFile t path = (records, .ok d)) :
    t.contains path = true := by
  cases hread : t.read path with
  | ok bytes => exact FileTree.contains_of_read hread
  | error e =>
    have htext : textOf t path = .error (.configRead path e.message) := by rw [textOf, hread]
    rw [ofFile, htext] at h
    cases (Prod.mk.inj h).2

theorem ofFile_of_not_contains (h : t.contains path = false) :
    ∃ e : SystemError, ofFile t path = ([], .error (.configRead path e.message)) := by
  cases hread : t.read path with
  | ok bytes =>
    rw [FileTree.contains_of_read hread] at h
    cases h
  | error e =>
    have htext : textOf t path = .error (.configRead path e.message) := by rw [textOf, hread]
    exact ⟨e, by rw [ofFile, htext]⟩

end Draft

namespace Program

variable {t : FileTree} {a : Arguments}

/-- The settings of a run whose configuration can be loaded. -/
theorem settings_of_ofFile {records : List Log.Record} {d : Draft} (h : Draft.ofFile t a.config = (records, .ok d)) :
    settings t a = (records, (a.override d).validate.mapError (.settings a.config)) := by
  have hdraft : draft t a = (records, .ok d) := by
    rw [draft, if_neg (by simp [Draft.contains_of_ofFile h]), h]
  rw [settings, hdraft]

theorem settings_of_missing (hdirectories : a.directories ≠ []) (hextensions : a.extensions ≠ [])
    (h : t.contains a.config = false) :
    (settings t a).2 = (a.override .empty).validate.mapError (.settings a.config) := by
  have hmissing : ¬ t.contains a.config ∧ a.directories ≠ [] ∧ a.extensions ≠ [] :=
    ⟨by simp [h], hdirectories, hextensions⟩
  rw [settings, draft, if_pos hmissing]

theorem withoutPath_mapError (x : Except Failure Settings) (path : Text) :
    (x.mapError (.settings path)).mapError Refusal.withoutPath = x.mapError (.settings []) := by
  cases x <;> rfl

/-- **Arguments replace the lists of a configuration and mix with nothing**: if they say where to search and for what,
every configuration that can be loaded, in any format and whatever its own lists are, comes to what the arguments, its
markers and the flag come to, with every problem of the markers and none of the lists that are replaced. So two
configurations with the same markers and, with the arguments, the same flag do not differ but in their path, and one
that is missing is as good as one that asks for nothing. Otherwise a configuration must not be missing. -/
theorem settings_overridden (a : Arguments) :
    (a.directories ≠ [] → a.extensions ≠ [] →
      (∀ t records d, Draft.ofFile t a.config = (records, .ok d) →
        (settings t a).2 = ((a.ruling (d.isRecursive || a.isRecursive) d.markers).mapError Draft.refusal).mapError
          (.settings a.config)) ∧
      (∀ t t' p p' records records' d d', Draft.ofFile t p = (records, .ok d) →
        Draft.ofFile t' p' = (records', .ok d') → d.markers = d'.markers →
        (d.isRecursive || a.isRecursive) = (d'.isRecursive || a.isRecursive) →
        (settings t { a with config := p }).2.mapError Refusal.withoutPath =
          (settings t' { a with config := p' }).2.mapError Refusal.withoutPath) ∧
      ∀ t t' records, t.contains a.config = false → Draft.ofFile t' a.config = (records, .ok .empty) →
        (settings t a).2 = (settings t' a).2) ∧
    (a.directories = [] ∨ a.extensions = [] → ∀ t, t.contains a.config = false →
      ∃ e : SystemError, (settings t a).2 = .error (.failed (.configRead a.config e.message))) := by
  refine ⟨fun hdirectories hextensions => ⟨?_, ?_, ?_⟩, ?_⟩
  · intro t records d h
    rw [settings_of_ofFile h, Arguments.validate_override hdirectories hextensions]
  · intro t t' p p' records records' d d' h h' hmarkers hflag
    have hvalidate : ∀ path e, ({ a with config := path }.override e).validate =
        (a.ruling (e.isRecursive || a.isRecursive) e.markers).mapError Draft.refusal :=
      fun path e => Arguments.validate_override (a := { a with config := path }) hdirectories hextensions e
    rw [settings_of_ofFile (a := { a with config := p }) h, settings_of_ofFile (a := { a with config := p' }) h',
      withoutPath_mapError, withoutPath_mapError, hvalidate, hvalidate, hmarkers, hflag]
  · intro t t' records hmissing h
    rw [settings_of_missing hdirectories hextensions hmissing, settings_of_ofFile h]
  · intro hnothing t hmissing
    obtain ⟨e, hfile⟩ := Draft.ofFile_of_not_contains hmissing
    have hneeded : ¬ (¬ t.contains a.config ∧ a.directories ≠ [] ∧ a.extensions ≠ []) := by
      rintro ⟨-, hdirectories, hextensions⟩
      exact hnothing.elim hdirectories hextensions
    exact ⟨e, by rw [settings, draft, if_neg hneeded, hfile]⟩

/-- Asks for one marker in two roles. -/
def sharing (directories extensions : List Text) (flag : Bool) : Draft :=
  ⟨directories, extensions, flag, ⟨["#".toList], [], [], ["#".toList]⟩⟩

/-- Arguments that say where to search and for what. -/
def replacing (config : Text) : Arguments :=
  { Arguments.default with
    config := config, directories := ["lib".toList], extensions := [" .rs".toList], isRecursive := true }

/-- A document without extensions and a layout without directories and with an empty extension, both with one marker
for two things; and a layout of nothing beside no configuration at all. -/
theorem settings_overridden_faulty :
    ∃ document layout nothing : Text,
      let t := configured (Utf8.encode document) (Utf8.encode layout)
      (settings t (replacing "a.json".toList)).2 = .error (.settings "a.json".toList
        (Draft.refusal [.marker (.shared "#".toList .line .continuation)])) ∧
      (settings t (replacing "a.json".toList)).2.mapError Refusal.withoutPath =
        (settings t (replacing "a.ini".toList)).2.mapError Refusal.withoutPath ∧
      (settings ⟨.directory [], []⟩ (replacing "a.ini".toList)).2 =
        (settings (configured [] (Utf8.encode nothing)) (replacing "a.ini".toList)).2 := by
  have hkept : ∀ (d : Draft) document layout, d.Portable → d.IsLayout layout →
      Draft.ofFile (configured document (Utf8.encode layout)) "a.ini".toList = ([Draft.loaded "a.ini".toList], .ok d) := by
    intro d document layout hd hlayout
    have hread := FileTree.read_entry (t := configured document (Utf8.encode layout)) rfl rfl (.tail _ (.head _))
    exact Draft.KeptAt.ofFile_eq (.keyValue (by decide) hread hlayout) hd
  have hd : (sharing ["src".toList] [] false).Portable :=
    ⟨rfl, fun k => by cases k <;> decide, fun k => by cases k <;> decide⟩
  have hd' : (sharing [] [".".toList] true).Portable :=
    ⟨rfl, fun k => by cases k <;> decide, fun k => by cases k <;> decide⟩
  have hempty : Draft.empty.Portable := ⟨rfl, fun k => by cases k <;> decide, fun k => by cases k <;> decide⟩
  obtain ⟨document, slots, fields, hdocument⟩ := Draft.Document.exists_describes (sharing ["src".toList] [] false)
  obtain ⟨layout, hlayout⟩ := Draft.KeyValue.exists_layout_lists hd'.oneLine
  obtain ⟨nothing, hnothing⟩ := Draft.KeyValue.exists_layout_lists hempty.oneLine
  have hjson : Draft.ofFile (configured (Utf8.encode document) (Utf8.encode layout)) "a.json".toList =
      ([Draft.loaded "a.json".toList], .ok (sharing ["src".toList] [] false)) := by
    have hread := FileTree.read_entry (t := configured (Utf8.encode document) (Utf8.encode layout)) rfl rfl (.head _)
    exact Draft.KeptAt.ofFile_eq (.json (by decide) hread ⟨slots, fields, hdocument⟩) hd
  have hnone : (⟨.directory [], []⟩ : FileTree).contains "a.ini".toList = false := by
    have hsteps := FileTree.steps_of_notMem (p := "a.ini".toList) (by decide) (by decide)
    rw [FileTree.contains, FileTree.find, FileTree.locate, if_neg (by decide), hsteps, FileTree.walkSteps]
    rfl
  obtain ⟨hloaded, htwo, -⟩ := (settings_overridden (replacing "a.json".toList)).1 (by decide) (by decide)
  obtain ⟨-, -, hmissing⟩ := (settings_overridden (replacing "a.ini".toList)).1 (by decide) (by decide)
  refine ⟨document, layout, nothing, ?_, ?_, ?_⟩
  · exact hloaded _ _ _ hjson
  · exact htwo _ _ "a.json".toList "a.ini".toList _ _ _ _ hjson (hkept _ _ _ hd' hlayout) rfl rfl
  · exact hmissing _ _ _ hnone (hkept .empty _ _ hempty hnothing)

end Program

end LineCensus
