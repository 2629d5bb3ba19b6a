import LineCensus.Proofs.CommandSigns
import LineCensus.Proofs.JsonNumbers

/-!
# Command lines that ask for given arguments

Arguments can be asked for in many ways: options and the configuration stand in any order, values are joined to their
names or not, letters are bundled or not, extensions come in one list or in several. `Arguments.Shows` says which signs
ask for given arguments; only the order of the directories and that of the extensions matter. Every command line with
such signs is read as these arguments (`ofWords_of_shows`).
-/

namespace LineCensus

namespace Text

theorem head?_intercalate {sep t : Text} (ne : t ≠ []) (rest : List Text) :
    (sep.intercalate (t :: rest)).head? = t.head? := by
  cases rest with
  | nil => rw [List.intercalate_singleton]
  | cons u rest => rw [List.intercalate_cons_cons, List.append_assoc, List.head?_append_of_ne_nil _ ne]

end Text

namespace Arguments

/-- Arguments that a command line can ask for: paths and extensions are not taken for options, and extensions have no
comma. -/
structure Sayable (a : Arguments) : Prop where
  config : a.config ≠ [] ∧ a.config.head? ≠ some '-'
  directories : ∀ p ∈ a.directories, p ≠ [] ∧ p.head? ≠ some '-'
  extensions : ∀ e ∈ a.extensions, e ≠ [] ∧ e.head? ≠ some '-' ∧ ',' ∉ e
  jobs : ∀ n ∈ a.jobs, 1 ≤ n ∧ n ≤ Nat.pow 2 64 - 1
  verbosity : a.verbosity ≤ 255
  compatible : ¬ (a.isQuiet = true ∧ 0 < a.verbosity)

/-- How often a flag is raised for these arguments. -/
def times (a : Arguments) : Flag → Nat
  | .recursive => a.isRecursive.toNat
  | .hidden => a.includesHidden.toNat
  | .follow => a.followsLinks.toNat
  | .gitignore => a.respectsIgnoreFiles.toNat
  | .verbose => a.verbosity
  | .quiet => a.isQuiet.toNat
  | .help | .version => 0

/-- The signs ask for these arguments. The configuration and the format may be left out if they are the default; the
extensions come in one list or in several, with commas between them. -/
structure Shows (a : Arguments) (signs : List Sign) : Prop where
  config : given .config signs = [a.config] ∨ given .config signs = [] ∧ a.config = default.config
  directories : given .directory signs = a.directories
  extensions : ∃ groups : List (List Text), (∀ group ∈ groups, group ≠ []) ∧ groups.flatten = a.extensions ∧
    given .extension signs = groups.map [','].intercalate
  jobs : given .jobs signs = a.jobs.toList.map Text.ofNat
  format : (∃ name, (name, a.format) ∈ formats ∧ given .format signs = [name.toList]) ∨
    given .format signs = [] ∧ a.format = default.format
  flags : ∀ f, raised f signs = a.times f

/-! ### What the signs come to -/

theorem lookup_formats {name : String} {format : Report.Format} (h : (name, format) ∈ formats) :
    name.toList.head? ≠ some '-' ∧ formats.lookup name = some format := by
  have hall : ∀ p ∈ formats, p.1.toList.head? ≠ some '-' ∧ formats.lookup p.1 = some p.2 := by decide
  exact hall _ h

theorem isSpace_of_isDigit {c : Char} (h : c.isDigit = true) : Text.isSpace c = false := by
  have hrange : 48 ≤ c.toNat ∧ c.toNat ≤ 57 := by
    simpa [Char.isDigit, UInt32.le_iff_toNat_le] using h
  simp [Text.isSpace]
  omega

/-- A number of jobs is read from its digits. -/
theorem jobs?_ofNat {n : Nat} (hpos : 1 ≤ n) (hle : n ≤ Nat.pow 2 64 - 1) : jobs? (Text.ofNat n) = .ok n := by
  have htrim : Text.trim (Text.ofNat n) = Text.ofNat n :=
    Text.trim_eq_self fun c hc => isSpace_of_isDigit (Text.isDigit_of_mem_ofNat hc)
  have hsign : ∀ rest, Text.ofNat n ≠ '+' :: rest := by
    intro rest heq
    have hplus : '+' ∈ Text.ofNat n := heq ▸ List.mem_cons_self
    exact absurd (Text.isDigit_of_mem_ofNat hplus) (by decide)
  have hzero : n ≠ 0 := by omega
  have hmax : ¬ maxJobs < n := Nat.not_lt.2 hle
  simp only [jobs?, htrim, Text.toNat?_ofNat, hzero, hmax, if_false]

variable {a : Arguments} {signs : List Sign}

/-- What is cut out of the lists of extensions. -/
theorem flatMap_splitOn_intercalate {groups : List (List Text)} (hne : ∀ group ∈ groups, group ≠ [])
    (hcomma : ∀ e ∈ groups.flatten, ',' ∉ e) :
    (groups.map [','].intercalate).flatMap (List.splitOn ',') = groups.flatten := by
  induction groups with
  | nil => rfl
  | cons group groups ih =>
    obtain ⟨hgroup, hne⟩ := List.forall_mem_cons.1 hne
    rw [List.flatten_cons, List.forall_mem_append] at hcomma
    rw [List.map_cons, List.flatMap_cons, List.flatten_cons, List.splitOn_intercalate ',' hcomma.1 hgroup,
      ih hne hcomma.2]

/-- A reader that knows what the signs say knows the arguments for which they ask. -/
theorem Shows.arguments_after (h : a.Shows signs) (ha : a.Sayable) : (Reader.after signs).arguments = a := by
  have hconfig : (given .config signs).head?.getD default.config = a.config := by
    obtain hgiven | ⟨hgiven, hdefault⟩ := h.config
    · rw [hgiven]
      rfl
    · rw [hgiven, hdefault]
      rfl
  have hextensions : (given .extension signs).flatMap (List.splitOn ',') = a.extensions := by
    obtain ⟨groups, hne, hflatten, hgiven⟩ := h.extensions
    rw [hgiven, ← hflatten]
    apply flatMap_splitOn_intercalate hne
    rw [hflatten]
    exact fun e he => (ha.extensions e he).2.2
  have hjobs : ((given .jobs signs).head?.bind fun v => (jobs? v).toOption) = a.jobs := by
    rw [h.jobs]
    cases hn : a.jobs with
    | none => rfl
    | some n =>
      obtain ⟨hpos, hle⟩ := ha.jobs n hn
      simp [jobs?_ofNat hpos hle, Except.toOption]
  have hformat : ((given .format signs).head?.bind fun v => formats.lookup v.toString).getD default.format =
      a.format := by
    obtain ⟨name, hname, hgiven⟩ | ⟨hgiven, hdefault⟩ := h.format
    · obtain ⟨-, hlookup⟩ := lookup_formats hname
      rw [hgiven, List.head?_cons, Option.bind_some, Text.toString_toList, hlookup]
      rfl
    · rw [hgiven, hdefault]
      rfl
  have hverbosity : min a.verbosity maxVerbosity = a.verbosity := Nat.min_eq_left ha.verbosity
  have hflag : ∀ b : Bool, decide (0 < b.toNat) = b := by decide
  simp only [Reader.after, hconfig, h.directories, hextensions, hjobs, hformat, h.flags, times, hflag, hverbosity]

/-! ### One sign behind the other -/

theorem acceptsAll_of_forall {done signs : List Sign}
    (h : ∀ before sign behind, signs = before ++ sign :: behind → Accepts (done ++ before) sign) :
    AcceptsAll done signs := by
  induction signs generalizing done with
  | nil => trivial
  | cons sign signs ih =>
    have hfirst := h [] sign signs rfl
    rw [List.append_nil] at hfirst
    refine ⟨hfirst, ih fun before next behind heq => ?_⟩
    have hnext := h (sign :: before) next behind (by rw [heq, List.cons_append])
    rwa [List.append_assoc, List.singleton_append]

/-- A setting that is given one value is given it where it stands, and nothing before. -/
theorem given_eq_singleton {before behind : List Sign} {s : Setting} {v w : Text}
    (h : given s (before ++ .value s v :: behind) = [w]) : given s before = [] ∧ v = w := by
  have hsplit : given s (before ++ .value s v :: behind) = given s before ++ v :: given s behind := by
    simp [given]
  rw [hsplit, List.append_eq_singleton_iff] at h
  obtain ⟨hnone, hone⟩ | ⟨-, hnone⟩ := h
  · exact ⟨hnone, (List.cons.inj hone).1⟩
  · cases hnone

theorem given_ne_nil (before behind : List Sign) (s : Setting) (v : Text) :
    given s (before ++ .value s v :: behind) ≠ [] := by
  simp [given]

theorem mem_given (before behind : List Sign) (s : Setting) (v : Text) :
    v ∈ given s (before ++ .value s v :: behind) := by
  simp [given]

/-- Values can come where they stand. -/
theorem Shows.accepts_value {before behind : List Sign} {s : Setting} {v : Text}
    (h : a.Shows (before ++ .value s v :: behind)) (ha : a.Sayable) : Accepts before (.value s v) := by
  cases s with
  | config =>
    obtain hgiven | ⟨hgiven, -⟩ := h.config
    · obtain ⟨hnew, rfl⟩ := given_eq_singleton hgiven
      exact ⟨ha.config.2, ha.config.1, hnew⟩
    · exact absurd hgiven (given_ne_nil _ _ _ _)
  | directory =>
    have hmem := mem_given before behind .directory v
    rw [h.directories] at hmem
    obtain ⟨hne, hdash⟩ := ha.directories v hmem
    exact ⟨hdash, hne⟩
  | extension =>
    obtain ⟨groups, hne, hflatten, hgiven⟩ := h.extensions
    have hmem := mem_given before behind .extension v
    rw [hgiven] at hmem
    obtain ⟨group, hgroup, rfl⟩ := List.mem_map.1 hmem
    obtain ⟨e, rest, rfl⟩ := List.exists_cons_of_ne_nil (hne group hgroup)
    have he : e ∈ a.extensions := hflatten ▸ List.mem_flatten.2 ⟨_, hgroup, List.mem_cons_self⟩
    obtain ⟨hne, hdash, -⟩ := ha.extensions e he
    refine ⟨?_, trivial⟩
    rwa [Text.head?_intercalate hne]
  | jobs =>
    have hgiven := h.jobs
    cases hn : a.jobs with
    | none =>
      rw [hn] at hgiven
      exact absurd hgiven (given_ne_nil _ _ _ _)
    | some n =>
      rw [hn] at hgiven
      obtain ⟨hnew, rfl⟩ := given_eq_singleton hgiven
      obtain ⟨hpos, hle⟩ := ha.jobs n hn
      refine ⟨fun hhead => ?_, hnew, n, jobs?_ofNat hpos hle⟩
      exact absurd (Text.isDigit_of_mem_ofNat (List.mem_of_mem_head? hhead)) (by decide)
  | format =>
    obtain ⟨name, hname, hgiven⟩ | ⟨hgiven, -⟩ := h.format
    · obtain ⟨hnew, rfl⟩ := given_eq_singleton hgiven
      obtain ⟨hdash, hlookup⟩ := lookup_formats hname
      exact ⟨hdash, hnew, a.format, by rw [Text.toString_toList, hlookup]⟩
    · exact absurd hgiven (given_ne_nil _ _ _ _)

/-- Flags can be raised where they stand. -/
theorem Shows.accepts_flag {before behind : List Sign} {f : Flag} (h : a.Shows (before ++ .flag f :: behind)) :
    Accepts before (.flag f) := by
  have htimes : raised f before + (raised f behind + 1) = a.times f := by
    rw [← h.flags f]
    simp [raised]
  -- all flags but one are raised at most once, so not before
  have honce : ∀ b : Bool, raised f before + (raised f behind + 1) = b.toNat → raised f before = 0 := by
    intro b hb
    have := b.toNat_le
    omega
  cases f with
  | verbose => trivial
  | help | version => cases htimes
  | recursive => exact honce _ htimes
  | hidden => exact honce _ htimes
  | follow => exact honce _ htimes
  | gitignore => exact honce _ htimes
  | quiet => exact honce _ htimes

/-- Signs that ask for arguments can follow one another. -/
theorem Shows.acceptsAll (h : a.Shows signs) (ha : a.Sayable) : AcceptsAll [] signs := by
  apply acceptsAll_of_forall
  rintro before sign behind rfl
  cases sign with
  | value s v => exact h.accepts_value ha
  | flag f => exact h.accepts_flag

/-! ### Asking for arguments -/

/-- The name of a format. -/
def formatName : Report.Format → String
  | .table => "table"
  | .json => "json"

/-- Flags, each as often as it is raised for these arguments. -/
def flagSigns (a : Arguments) : List Sign :=
  flagNames.flatMap fun p => List.replicate (a.times p.2) (.flag p.2)

/-- The signs that ask for arguments one after the other. -/
def plainSigns (a : Arguments) : List Sign :=
  [.value .config a.config] ++ a.directories.map (.value .directory) ++ a.extensions.map (.value .extension) ++
    (a.jobs.toList.map Text.ofNat).map (.value .jobs) ++ [.value .format (formatName a.format).toList] ++ a.flagSigns

theorem given_map (s s' : Setting) (vs : List Text) :
    given s (vs.map (.value s')) = if s' = s then vs else [] := by
  induction vs with
  | nil => simp [given]
  | cons v vs ih =>
    rw [List.map_cons, ← List.singleton_append, given_append, given_value, ih]
    split <;> rfl

theorem raised_map (f : Flag) (s : Setting) (vs : List Text) : raised f (vs.map (.value s)) = 0 := by
  simp [raised, List.count_eq_zero]

theorem given_flagSigns (s : Setting) (a : Arguments) : given s a.flagSigns = [] := by
  rw [given, List.filterMap_eq_nil_iff]
  intro sign hsign
  obtain ⟨p, -, hsign⟩ := List.mem_flatMap.1 hsign
  rw [List.eq_of_mem_replicate hsign]

theorem raised_flagSigns (f : Flag) (a : Arguments) : raised f a.flagSigns = a.times f := by
  cases f <;> simp [raised, flagSigns, flagNames, List.count_replicate]

theorem given_plainSigns (s : Setting) (a : Arguments) :
    given s a.plainSigns =
      match s with
      | .config => [a.config]
      | .directory => a.directories
      | .extension => a.extensions
      | .jobs => a.jobs.toList.map Text.ofNat
      | .format => [(formatName a.format).toList] := by
  simp only [plainSigns, given_append, given_value, given_map, given_flagSigns]
  cases s <;> simp

theorem raised_plainSigns (f : Flag) (a : Arguments) : raised f a.plainSigns = a.times f := by
  simp only [plainSigns, raised_append, raised_value, raised_map, raised_flagSigns, Nat.zero_add]

theorem shows_plainSigns (a : Arguments) : a.Shows a.plainSigns where
  config := .inl (given_plainSigns .config a)
  directories := given_plainSigns .directory a
  extensions := by
    refine ⟨a.extensions.map ([·]), by simp, by simp [← List.flatMap_def], ?_⟩
    have hjoin : [','].intercalate ∘ ([·]) = (id : Text → Text) := funext fun _ => List.intercalate_singleton
    rw [given_plainSigns, List.map_map, hjoin, List.map_id]
  jobs := given_plainSigns .jobs a
  format := by
    refine .inl ⟨formatName a.format, ?_, given_plainSigns .format a⟩
    cases a.format <;> decide
  flags f := raised_plainSigns f a

/-- Every sign can be written. -/
theorem exists_part (sign : Sign) : ∃ words, Part [sign] words := by
  cases sign with
  | value s v =>
    cases s with
    | config => exact ⟨_, .config v⟩
    | directory => exact ⟨_, .joined (.head _) v⟩
    | extension => exact ⟨_, .joined (.tail _ (.head _)) v⟩
    | jobs => exact ⟨_, .joined (.tail _ (.tail _ (.head _))) v⟩
    | format => exact ⟨_, .joined (.tail _ (.tail _ (.tail _ (.head _)))) v⟩
  | flag f =>
    have hnamed : ∃ p ∈ flagNames, p.2 = f := by
      cases f <;> decide
    obtain ⟨⟨name, f⟩, hname, rfl⟩ := hnamed
    exact ⟨_, .long hname⟩

theorem exists_line (signs : List Sign) : ∃ words, Line signs words := by
  induction signs with
  | nil => exact ⟨[], .nil⟩
  | cons sign signs ih =>
    obtain ⟨words, hpart⟩ := exists_part sign
    obtain ⟨words', hline⟩ := ih
    exact ⟨words ++ words', .cons hpart hline⟩

/-- **Reading inverts every rendering**: there is a command line for all arguments that one can ask for, and they are
read from every command line whose signs ask for them. -/
theorem ofWords_of_shows {a : Arguments} (ha : a.Sayable) :
    (∃ signs words, a.Shows signs ∧ Line signs words) ∧
      ∀ signs words, a.Shows signs → Line signs words → ofWords words = .ok a := by
  constructor
  · obtain ⟨words, hline⟩ := exists_line a.plainSigns
    exact ⟨_, words, a.shows_plainSigns, hline⟩
  · intro signs words h line
    obtain ⟨r, htake, hsays⟩ := line.foldlM_take (Reader.says_after []) (h.acceptsAll ha)
    have hsettle : r.settle = .ok (Reader.after signs) := hsays
    have hcompatible : (a.isQuiet && decide (0 < a.verbosity)) = false := by
      simpa using ha.compatible
    rw [ofWords, Reader.start_eq_after, htake]
    change r.finish = .ok a
    rw [Reader.finish, hsettle]
    simp only [bind, Except.bind, h.arguments_after ha, hcompatible]
    rfl

/-- Arguments with the greatest number of jobs. -/
def busy : Arguments where
  config := "cfg.yml".toList
  directories := ["a".toList, "b=c".toList]
  extensions := ["cpp".toList, "h".toList, "rs".toList]
  isRecursive := true
  includesHidden := false
  followsLinks := true
  respectsIgnoreFiles := false
  jobs := some 18446744073709551615
  format := .json
  verbosity := 3
  isQuiet := false

/-- Flags in a bundle, by letter and by name, values joined and apart, and two lists of extensions. -/
theorem ofWords_busy :
    busy.Sayable ∧ ofWords (["-vr", "--ext=cpp,h", "--dir", "a", "cfg.yml", "--verbose", "--jobs",
      "18446744073709551615", "--dir=b=c", "--follow", "--format=json", "--ext", "rs", "-v"].map String.toList) =
        .ok busy := by
  have hsayable : busy.Sayable := by
    refine ⟨?_, ?_, ?_, ?_, ?_, ?_⟩ <;> decide
  have hshows : busy.Shows [.flag .verbose, .flag .recursive, .value .extension "cpp,h".toList,
      .value .directory "a".toList, .value .config "cfg.yml".toList, .flag .verbose,
      .value .jobs "18446744073709551615".toList, .value .directory "b=c".toList, .flag .follow,
      .value .format "json".toList, .value .extension "rs".toList, .flag .verbose] := by
    refine ⟨.inl rfl, rfl, ⟨[["cpp".toList, "h".toList], ["rs".toList]], by decide, rfl, rfl⟩, rfl, ?_, ?_⟩
    · exact .inl ⟨"json", by decide, rfl⟩
    · intro f
      cases f <;> rfl
  have hline :=
    Line.cons (@Part.letters [('v', .verbose), ('r', .recursive)] (by decide) nofun) <|
    Line.cons (@Part.joined "ext" .extension (by decide) "cpp,h".toList) <|
    Line.cons (@Part.apart "dir" .directory (by decide) "a".toList) <|
    Line.cons (.config "cfg.yml".toList) <|
    Line.cons (@Part.long "verbose" .verbose (by decide)) <|
    Line.cons (@Part.apart "jobs" .jobs (by decide) "18446744073709551615".toList) <|
    Line.cons (@Part.joined "dir" .directory (by decide) "b=c".toList) <|
    Line.cons (@Part.long "follow" .follow (by decide)) <|
    Line.cons (@Part.joined "format" .format (by decide) "json".toList) <|
    Line.cons (@Part.apart "ext" .extension (by decide) "rs".toList) <|
    Line.cons (@Part.letters [('v', .verbose)] (by decide) nofun) .nil
  exact ⟨hsayable, (ofWords_of_shows hsayable).2 _ _ hshows hline⟩

end Arguments

end LineCensus
