import LineCensus.Arguments
import LineCensus.Proofs.ConfigLines

/-!
# What the words of a command line say

Each value and each flag on a command line is a `Sign`. What a reader knows is determined by the signs so far
(`Reader.after`): how often each flag was raised, and which values each setting was given, in order. So a word is taken
by one step of the reader for each of its signs, whether these stand in words of their own or are bundled, and whether a
value is joined to its name or comes in the next word (`Part.foldlM_take`). The value of the last word is still
unsettled, which is why readers are compared behind `Reader.settle`.
-/

namespace LineCensus

theorem Text.toString_toList (name : String) : Text.toString name.toList = name := String.ofList_toList

theorem Text.splitFirst?_of_notMem {c : Char} {t : Text} (h : c ∉ t) : splitFirst? c t = none := by
  have hall : t.dropWhile (· != c) = [] := by
    rw [List.dropWhile_eq_nil_iff]
    intro d hd
    exact bne_iff_ne.2 fun he => h (he ▸ hd)
  rw [splitFirst?, hall]

namespace Arguments

/-- What a command line says at one place. -/
inductive Sign where
  | value (s : Setting) (v : Text)
  | flag (f : Flag)
  deriving DecidableEq

/-- The values that a setting is given, in order. -/
def given (s : Setting) (signs : List Sign) : List Text :=
  signs.filterMap fun
    | .value s' v => if s' = s then some v else none
    | .flag _ => none

/-- How often a flag is raised. -/
def raised (f : Flag) (signs : List Sign) : Nat := signs.count (.flag f)

section Signs

variable (s s' : Setting) (f f' : Flag) (v : Text) (signs signs' : List Sign)

@[simp] theorem given_append : given s (signs ++ signs') = given s signs ++ given s signs' := List.filterMap_append

@[simp] theorem given_value : given s [.value s' v] = if s' = s then [v] else [] := by
  unfold given
  split <;> simp [*]

@[simp] theorem given_flag : given s [.flag f] = [] := rfl

@[simp] theorem raised_append : raised f (signs ++ signs') = raised f signs + raised f signs' := List.count_append

@[simp] theorem raised_value : raised f [.value s v] = 0 := by
  simp [raised]

@[simp] theorem raised_flag : raised f [.flag f'] = if f' = f then 1 else 0 := by
  simp [raised, List.count_singleton]

end Signs

/-! ### Words -/

/-- How signs are written: the configuration as a word of its own, a value behind the name of its setting or joined to
it, and flags by name or by letter, any number of letters behind one dash. -/
inductive Part : List Sign → List Text → Prop where
  | config (v : Text) : Part [.value .config v] [v]
  | apart {name : String} {s : Setting} (h : (name, s) ∈ settingNames) (v : Text) :
      Part [.value s v] ['-' :: '-' :: name.toList, v]
  | joined {name : String} {s : Setting} (h : (name, s) ∈ settingNames) (v : Text) :
      Part [.value s v] ['-' :: '-' :: (name.toList ++ '=' :: v)]
  | long {name : String} {f : Flag} (h : (name, f) ∈ flagNames) : Part [.flag f] ['-' :: '-' :: name.toList]
  | letters {bundle : List (Char × Flag)} (h : ∀ p ∈ bundle, p ∈ flagLetters) (ne : bundle ≠ []) :
      Part (bundle.map fun p => .flag p.2) ['-' :: bundle.map Prod.fst]

/-- A command line that says these signs, in this order. -/
inductive Line : List Sign → List Text → Prop where
  | nil : Line [] []
  | cons {signs signs' : List Sign} {words words' : List Text} (first : Part signs words) (rest : Line signs' words') :
      Line (signs ++ signs') (words ++ words')

/-! ### Readers -/

namespace Reader

/-- What a reader knows behind these signs. -/
def after (signs : List Sign) : Reader where
  arguments :=
    { config := (given .config signs).head?.getD default.config
      directories := given .directory signs
      extensions := (given .extension signs).flatMap (List.splitOn ',')
      isRecursive := decide (0 < raised .recursive signs)
      includesHidden := decide (0 < raised .hidden signs)
      followsLinks := decide (0 < raised .follow signs)
      respectsIgnoreFiles := decide (0 < raised .gitignore signs)
      jobs := (given .jobs signs).head?.bind fun v => (jobs? v).toOption
      format := ((given .format signs).head?.bind fun v => formats.lookup v.toString).getD default.format
      verbosity := min (raised .verbose signs) maxVerbosity
      isQuiet := decide (0 < raised .quiet signs) }
  hasConfig := !(given .config signs).isEmpty
  hasFormat := !(given .format signs).isEmpty
  pending := none
  isTrailing := false

theorem start_eq_after : start = after [] := rfl

/-- Behind the signs `done`, the setting can have this value. -/
def Admits (done : List Sign) (v : Text) : Setting → Prop
  | .config => v ≠ [] ∧ given .config done = []
  | .directory => v ≠ []
  | .extension => True
  | .jobs => given .jobs done = [] ∧ ∃ n, jobs? v = .ok n
  | .format => given .format done = [] ∧ ∃ format, formats.lookup v.toString = some format

/-- Behind the signs `done`, the flag can be raised. -/
def Allows (done : List Sign) : Flag → Prop
  | .verbose => True
  | .help | .version => False
  | f => raised f done = 0

/-- An option that is given its value adds a sign. -/
theorem set_after {done : List Sign} {v : Text} {s : Setting} (hs : s ≠ .config) (h : Admits done v s) :
    (after done).set v s = .ok (after (done ++ [.value s v])) := by
  cases s with
  | config => exact absurd rfl hs
  | directory =>
    have hne : v ≠ [] := h
    simp [set, after, hne]
  | extension => simp [set, after]
  | jobs =>
    obtain ⟨hnew, n, hn⟩ := h
    simp [set, after, hnew, hn, Except.toOption]
  | format =>
    obtain ⟨hnew, format, hformat⟩ := h
    simp [set, after, hnew, hformat]

/-- The configuration, too, once it was counted. -/
theorem set_config_after {done : List Sign} {v : Text} (h : Admits done v .config) :
    Reader.set { after done with hasConfig := true } v .config = .ok (after (done ++ [.value .config v])) := by
  obtain ⟨hne, hnew⟩ := h
  simp [set, after, hne, hnew]

/-- A flag that is raised adds a sign. -/
theorem raise_after {done : List Sign} {f : Flag} (h : Allows done f) :
    (after done).raise f = .ok (after (done ++ [.flag f])) := by
  cases f with
  | help | version => cases h
  | verbose =>
    simp only [raise, after, raised_append, raised_flag, given_append, given_flag, List.append_nil, Except.ok.injEq]
    simp
    omega
  | recursive | hidden | follow | gitignore | quiet =>
    simp only [Allows] at h
    simp [raise, raise.once, after, h]

/-- With its last value settled, a reader knows what these signs say. -/
def Says (r : Reader) (signs : List Sign) : Prop := r.settle = .ok (after signs)

theorem set_eq_ok {r r' : Reader} {v : Text} {s : Setting} (h : r.set v s = .ok r') :
    r'.hasConfig = r.hasConfig ∧ r'.isTrailing = r.isTrailing := by
  unfold set at h
  split at h
  all_goals repeat' split at h
  all_goals cases h
  all_goals exact ⟨rfl, rfl⟩

variable {r : Reader} {done : List Sign}

theorem says_after (signs : List Sign) : (after signs).Says signs := rfl

/-- What a reader is waiting for, and what settling a value leaves as it is. -/
theorem Says.waiting (h : r.Says done) :
    (∀ s, r.pending ≠ some (s, none)) ∧ r.hasConfig = (after done).hasConfig ∧ r.isTrailing = false := by
  unfold Says settle at h
  split at h
  · cases h
    exact ⟨nofun, rfl, rfl⟩
  · cases h
  · rename_i s v hpending
    obtain ⟨hconfig, htrailing⟩ := set_eq_ok h
    rw [hpending]
    exact ⟨nofun, hconfig.symm, htrailing.symm⟩

/-! ### One word -/

/-- A word that does not begin with a dash is no option. -/
theorem take_of_head? {v : Text} (hr : r.isTrailing = false) (hv : v.head? ≠ some '-') : r.take v = r.plain v := by
  unfold take
  rw [if_neg (by simp [hr])]
  split
  · exact absurd rfl hv
  · exact absurd rfl hv
  · exact absurd rfl hv
  · rfl

/-- The configuration is taken once. -/
theorem Says.take_config (h : r.Says done) {v : Text} (hv : v.head? ≠ some '-') (admits : Admits done v .config) :
    ∃ r', r.take v = .ok r' ∧ r'.Says (done ++ [.value .config v]) := by
  obtain ⟨hpending, hconfig, htrailing⟩ := h.waiting
  have hsettle : r.settle = .ok (after done) := h
  have hnew : r.hasConfig = false := by
    simp [hconfig, after, admits.2]
  -- a setting that still needs a value would take the word for it
  have hplain : r.plain v = r.path v := by
    unfold plain
    split
    · exact absurd ‹_› (hpending _)
    · rfl
  refine ⟨{ after done with hasConfig := true, pending := some (.config, some v) }, ?_, set_config_after admits⟩
  rw [take_of_head? htrailing hv, hplain, path, hnew, hsettle]
  rfl

/-! ### Options -/

/-- The names of options, which have no equals sign, lead to their settings. -/
theorem lookup_settingNames {name : String} {s : Setting} (h : (name, s) ∈ settingNames) :
    s ≠ .config ∧ '=' ∉ name.toList ∧ name.toList ≠ [] ∧ settingNames.lookup name = some s := by
  have hall : ∀ p ∈ settingNames, p.2 ≠ .config ∧ '=' ∉ p.1.toList ∧ p.1.toList ≠ [] ∧
      settingNames.lookup p.1 = some p.2 := by decide
  exact hall _ h

/-- The names of flags are others, and lead to their flags. -/
theorem lookup_flagNames {name : String} {f : Flag} (h : (name, f) ∈ flagNames) :
    '=' ∉ name.toList ∧ name.toList ≠ [] ∧ settingNames.lookup name = none ∧ flagNames.lookup name = some f := by
  have hall : ∀ p ∈ flagNames, '=' ∉ p.1.toList ∧ p.1.toList ≠ [] ∧ settingNames.lookup p.1 = none ∧
      flagNames.lookup p.1 = some p.2 := by decide
  exact hall _ h

theorem lookup_flagLetters {c : Char} {f : Flag} (h : (c, f) ∈ flagLetters) :
    c ≠ '-' ∧ flagLetters.lookup c = some f := by
  have hall : ∀ p ∈ flagLetters, p.1 ≠ '-' ∧ flagLetters.lookup p.1 = some p.2 := by decide
  exact hall _ h

theorem take_long (hr : r.isTrailing = false) {body : Text} (hbody : body ≠ []) :
    r.take ('-' :: '-' :: body) = r.long body := by
  obtain ⟨c, body, rfl⟩ := List.exists_cons_of_ne_nil hbody
  unfold take
  rw [if_neg (by simp [hr])]
  rfl

/-- Behind one dash there are letters. -/
theorem take_letters (hr : r.isTrailing = false) {c : Char} (hc : c ≠ '-') (more : Text) :
    r.take ('-' :: c :: more) = (c :: more).foldlM letter r := by
  unfold take
  rw [if_neg (by simp [hr])]
  split
  · exact absurd ‹_› (by simp [hc])
  · exact absurd ‹_› (by simp [hc])
  · rename_i heq
    cases heq
    rfl
  · rename_i hother
    exact absurd rfl (hother c more)

theorem Says.flag_eq (h : r.Says done) {f : Flag} (allows : Allows done f) :
    r.flag f = .ok (after (done ++ [.flag f])) := by
  have hsettle : r.settle = .ok (after done) := h
  rw [flag, hsettle]
  exact raise_after allows

/-- A flag is taken by its name. -/
theorem Says.take_flag (h : r.Says done) {name : String} {f : Flag} (hname : (name, f) ∈ flagNames)
    (allows : Allows done f) : r.take ('-' :: '-' :: name.toList) = .ok (after (done ++ [.flag f])) := by
  obtain ⟨hequals, hne, hsetting, hflag⟩ := lookup_flagNames hname
  obtain ⟨-, -, htrailing⟩ := h.waiting
  rw [take_long htrailing hne, long, Text.splitFirst?_of_notMem hequals]
  simp only [Text.toString_toList, hsetting, hflag]
  exact h.flag_eq allows

/-- The name of a setting waits for its value. -/
theorem Says.take_name (h : r.Says done) {name : String} {s : Setting} (hname : (name, s) ∈ settingNames) :
    r.take ('-' :: '-' :: name.toList) = .ok { after done with pending := some (s, none) } := by
  obtain ⟨-, hequals, hne, hsetting⟩ := lookup_settingNames hname
  obtain ⟨-, -, htrailing⟩ := h.waiting
  have hsettle : r.settle = .ok (after done) := h
  rw [take_long htrailing hne, long, Text.splitFirst?_of_notMem hequals]
  simp only [Text.toString_toList, hsetting, hsettle]
  rfl

/-- A value is taken with the name of its setting. -/
theorem Says.take_joined (h : r.Says done) {name : String} {s : Setting} (hname : (name, s) ∈ settingNames) {v : Text}
    (admits : Admits done v s) :
    r.take ('-' :: '-' :: (name.toList ++ '=' :: v)) = .ok (after (done ++ [.value s v])) := by
  obtain ⟨hconfig, hequals, hne, hsetting⟩ := lookup_settingNames hname
  obtain ⟨-, -, htrailing⟩ := h.waiting
  have hsettle : r.settle = .ok (after done) := h
  rw [take_long htrailing (by simp), long, Text.splitFirst?_append_cons hequals]
  simp only [Text.toString_toList, hsetting, hsettle]
  exact set_after hconfig admits

/-- A value is taken behind the name of its setting. -/
theorem Says.take_apart (h : r.Says done) {name : String} {s : Setting} (hname : (name, s) ∈ settingNames) {v : Text}
    (hv : v.head? ≠ some '-') (admits : Admits done v s) :
    ∃ r', ['-' :: '-' :: name.toList, v].foldlM take r = .ok r' ∧ r'.Says (done ++ [.value s v]) := by
  obtain ⟨hconfig, -⟩ := lookup_settingNames hname
  refine ⟨{ after done with pending := some (s, some v) }, ?_, set_after hconfig admits⟩
  rw [List.foldlM_cons, h.take_name hname]
  change [v].foldlM take { after done with pending := some (s, none) } = _
  rw [List.foldlM_cons, take_of_head? rfl hv]
  rfl

/-! ### Bundles -/

theorem Says.letter_eq (h : r.Says done) {c : Char} {f : Flag} (hletter : (c, f) ∈ flagLetters)
    (allows : Allows done f) : r.letter c = .ok (after (done ++ [.flag f])) := by
  obtain ⟨-, hflag⟩ := lookup_flagLetters hletter
  simp only [letter, hflag]
  exact h.flag_eq allows

end Reader

open Reader

/-- Behind the signs `done`, a sign can come. -/
def Accepts (done : List Sign) : Sign → Prop
  | .value s v => v.head? ≠ some '-' ∧ Admits done v s
  | .flag f => Allows done f

/-- Behind the signs `done`, these signs can come, each behind those before it. -/
def AcceptsAll (done : List Sign) : List Sign → Prop
  | [] => True
  | sign :: signs => Accepts done sign ∧ AcceptsAll (done ++ [sign]) signs

theorem acceptsAll_append {done signs signs' : List Sign} :
    AcceptsAll done (signs ++ signs') ↔ AcceptsAll done signs ∧ AcceptsAll (done ++ signs) signs' := by
  induction signs generalizing done with
  | nil => simp [AcceptsAll]
  | cons sign signs ih => simp [AcceptsAll, ih, and_assoc]

/-- Letters are taken one by one. -/
theorem Reader.Says.foldlM_letter {bundle : List (Char × Flag)} (hbundle : ∀ p ∈ bundle, p ∈ flagLetters) {r : Reader}
    {done : List Sign} (h : r.Says done) (accepts : AcceptsAll done (bundle.map fun p => .flag p.2)) :
    ∃ r', (bundle.map Prod.fst).foldlM letter r = .ok r' ∧ r'.Says (done ++ bundle.map fun p => .flag p.2) := by
  induction bundle generalizing r done with
  | nil => exact ⟨r, rfl, by simpa using h⟩
  | cons p bundle ih =>
    obtain ⟨hp, hbundle⟩ := List.forall_mem_cons.1 hbundle
    obtain ⟨hfirst, hrest⟩ := accepts
    obtain ⟨r', hfold, hsays⟩ := ih hbundle (says_after (done ++ [.flag p.2])) hrest
    refine ⟨r', ?_, by simpa using hsays⟩
    rw [List.map_cons, List.foldlM_cons, h.letter_eq hp hfirst]
    exact hfold

/-- Every part of a command line adds its signs. -/
theorem Part.foldlM_take {signs : List Sign} {words : List Text} (part : Part signs words) {r : Reader}
    {done : List Sign} (h : r.Says done) (accepts : AcceptsAll done signs) :
    ∃ r', words.foldlM take r = .ok r' ∧ r'.Says (done ++ signs) := by
  cases part with
  | config v =>
    obtain ⟨⟨hv, admits⟩, -⟩ := accepts
    obtain ⟨r', htake, hsays⟩ := h.take_config hv admits
    refine ⟨r', ?_, hsays⟩
    rw [List.foldlM_cons, htake]
    rfl
  | apart hname v =>
    obtain ⟨⟨hv, admits⟩, -⟩ := accepts
    exact h.take_apart hname hv admits
  | joined hname v =>
    obtain ⟨⟨-, admits⟩, -⟩ := accepts
    refine ⟨_, ?_, says_after _⟩
    rw [List.foldlM_cons, h.take_joined hname admits]
    rfl
  | long hname =>
    obtain ⟨allows, -⟩ := accepts
    refine ⟨_, ?_, says_after _⟩
    rw [List.foldlM_cons, h.take_flag hname allows]
    rfl
  | @letters bundle hbundle ne =>
    obtain ⟨r', hfold, hsays⟩ := h.foldlM_letter hbundle accepts
    refine ⟨r', ?_, hsays⟩
    obtain ⟨p, bundle, rfl⟩ := List.exists_cons_of_ne_nil ne
    obtain ⟨hdash, -⟩ := lookup_flagLetters (hbundle p (.head _))
    obtain ⟨-, -, htrailing⟩ := h.waiting
    rw [List.foldlM_cons, List.map_cons, take_letters htrailing hdash, ← List.map_cons, hfold]
    rfl

/-- **Words add their signs**: the words of a command line whose signs can follow one another are taken, and the reader
knows what these signs say. -/
theorem Line.foldlM_take {signs : List Sign} {words : List Text} (line : Line signs words) {r : Reader}
    {done : List Sign} (h : r.Says done) (accepts : AcceptsAll done signs) :
    ∃ r', words.foldlM take r = .ok r' ∧ r'.Says (done ++ signs) := by
  induction line generalizing r done with
  | nil => exact ⟨r, rfl, by simpa using h⟩
  | cons first _ ih =>
    obtain ⟨hfirst, hrest⟩ := acceptsAll_append.1 accepts
    obtain ⟨r₁, htake, hsays⟩ := first.foldlM_take h hfirst
    obtain ⟨r₂, htakes, hsays⟩ := ih hsays hrest
    refine ⟨r₂, ?_, by simpa using hsays⟩
    rw [List.foldlM_append, htake]
    exact htakes

end Arguments

end LineCensus
