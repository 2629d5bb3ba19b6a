import Mathlib.Data.List.TakeWhile
import LineCensus.Draft.KeyValue

/-!
# The layouts of configuration lines

`Layout` says how entries may be laid out in lines: with white space around keys and values, keys in any case,
blank lines and remarks in between, and any line ends. Each line is read as what it says
(`Says.read_eq`), so every layout of entries is read as the draft to which they add up (`Layout.parse_eq`).
-/

namespace LineCensus

namespace Text

/-! ### White space around a text -/

theorem trimStart_of_isSpace {t : Text} (h : ∀ c ∈ t, isSpace c = true) : trimStart t = [] :=
  List.dropWhile_eq_nil_iff.2 h

theorem trimEnd_append_of_isSpace {t w : Text} (h : ∀ c ∈ w, isSpace c = true) : trimEnd (t ++ w) = trimEnd t := by
  rw [trimEnd, List.reverse_append, List.dropWhile_append_of_pos (by simpa using h), trimEnd]

/-- Trimming the end stops at a character that is no white space. -/
theorem trimEnd_append_cons {s t : Text} {c : Char} (hc : isSpace c = false) :
    trimEnd (s ++ c :: t) = s ++ c :: trimEnd t := by
  unfold trimEnd
  rw [List.reverse_append, List.reverse_cons, List.append_assoc, List.dropWhile_append]
  split
  · rename_i hempty
    rw [List.isEmpty_iff.1 hempty, List.singleton_append, List.dropWhile_cons, if_neg (by simp [hc])]
    simp
  · simp

/-- White space around a text does not change what is left of it. -/
theorem trim_append {v t w : Text} (hv : ∀ c ∈ v, isSpace c = true) (hw : ∀ c ∈ w, isSpace c = true) :
    trim (v ++ t ++ w) = trim t := by
  unfold trim
  rw [List.append_assoc, trimStart, List.dropWhile_append_of_pos hv, List.dropWhile_append]
  split
  · rename_i hempty
    have ht : trimStart t = [] := List.isEmpty_iff.1 hempty
    rw [ht, show w.dropWhile isSpace = [] from trimStart_of_isSpace hw]
  · exact trimEnd_append_of_isSpace hw

theorem exists_trimEnd_append (t : Text) : ∃ w, t = trimEnd t ++ w ∧ ∀ c ∈ w, isSpace c = true := by
  refine ⟨(t.reverse.takeWhile isSpace).reverse, ?_, ?_⟩
  · rw [trimEnd, ← List.reverse_append, List.takeWhile_append_dropWhile, List.reverse_reverse]
  · intro c hc
    exact List.mem_takeWhile_imp (List.mem_reverse.1 hc)

theorem trim_trimEnd (t : Text) : trim (trimEnd t) = trim t := by
  obtain ⟨w, ht, hw⟩ := exists_trimEnd_append t
  calc trim (trimEnd t) = trim ([] ++ trimEnd t ++ w) := (trim_append (by simp) hw).symm
    _ = trim t := by rw [List.nil_append, ← ht]

/-- A text without white space is left as it is. -/
theorem trim_eq_self {t : Text} (h : ∀ c ∈ t, isSpace c = false) : trim t = t := by
  have hstart : ∀ s : Text, (∀ c ∈ s, isSpace c = false) → s.dropWhile isSpace = s := by
    intro s hs
    cases s with
    | nil => rfl
    | cons c s => rw [List.dropWhile_cons, if_neg (by simp [hs c])]
  rw [trim, trimStart, hstart t h, trimEnd, hstart _ (by simpa using h), List.reverse_reverse]

theorem trim_dropLastIf (t : Text) : trim (dropLastIf '\r' t) = trim t := by
  unfold dropLastIf
  split
  · rename_i hlast
    obtain ⟨s, rfl⟩ := List.getLast?_eq_some_iff.1 hlast
    rw [List.dropLast_concat]
    have hreturn : ∀ c ∈ ['\r'], isSpace c = true := by
      intro c hc
      rw [List.mem_singleton.1 hc]
      rfl
    exact (trim_append (v := []) (by simp) hreturn).symm
  · rfl

/-! ### Upper and lower case -/

/-- White space has no case. -/
theorem toUpper_of_isSpace {c : Char} (h : isSpace c = true) : c.toUpper = c := by
  have hletter : ¬ (97 ≤ c.toNat ∧ c.toNat ≤ 122) := by
    rintro ⟨hlow, hhigh⟩
    simp only [isSpace, Bool.or_eq_true, Bool.and_eq_true, decide_eq_true_eq, beq_iff_eq] at h
    omega
  unfold Char.toUpper
  rw [dif_neg]
  exact hletter

theorem toLower_of_isSpace {c : Char} (h : isSpace c = true) : c.toLower = c := by
  have hletter : ¬ (65 ≤ c.toNat ∧ c.toNat ≤ 90) := by
    rintro ⟨hlow, hhigh⟩
    simp only [isSpace, Bool.or_eq_true, Bool.and_eq_true, decide_eq_true_eq, beq_iff_eq] at h
    omega
  unfold Char.toLower
  rw [dif_neg]
  exact hletter

/-! ### Lines and halves -/

theorem splitFirst?_append_cons {c : Char} {s t : Text} (h : c ∉ s) : splitFirst? c (s ++ c :: t) = some (s, t) := by
  have hs : ∀ d ∈ s, (d != c) = true := by
    intro d hd
    have hne : d ≠ c := fun he => h (he ▸ hd)
    simpa using hne
  rw [splitFirst?, List.dropWhile_append_of_pos hs, List.takeWhile_append_of_pos hs]
  simp

/-- A text of one line that is not ended. -/
theorem lines_of_notMem {l : Text} (h : '\n' ∉ l) : lines l = if l = [] then [] else [l] := by
  rw [lines, List.splitOn_eq_singleton h]
  simp

/-- The first line ends where the first line feed stands. -/
theorem lines_append_cons {l t : Text} (h : '\n' ∉ l) : lines (l ++ '\n' :: t) = dropLastIf '\r' l :: lines t := by
  obtain ⟨ended, last, hlast⟩ := (List.eq_nil_or_concat (t.splitOn '\n')).resolve_left (List.splitOn_ne_nil _ _)
  unfold lines
  rw [List.splitOn_append_cons_self_of_not_mem h, hlast]
  simp

end Text

namespace Draft

/-! ### Keys and their lists -/

/-- The keys that add to a list. -/
inductive Key where
  | directory
  | extension
  | lineMarker
  | opening
  | closing
  | continuation
  deriving DecidableEq, Repr

namespace Key

/-- The word for a key. -/
def word : Key → String
  | directory => "DIRECTORY"
  | extension => "EXTENSION"
  | lineMarker => "COMMENT"
  | opening => "BLOCK_COMMENT_START"
  | closing => "BLOCK_COMMENT_END"
  | continuation => "CONTINUATION"

/-- The entry of a key and a value. -/
def entry : Key → Text → Entry
  | directory => .directory
  | extension => .extension
  | lineMarker => .lineMarker
  | opening => .opening
  | closing => .closing
  | continuation => .continuation

/-- The list of a draft to which a key adds. -/
def list (d : Draft) : Key → List Text
  | directory => d.directories
  | extension => d.extensions
  | lineMarker => d.markers.line
  | opening => d.markers.openings
  | closing => d.markers.closings
  | continuation => d.markers.continuation

/-- The value that an entry adds to the list of a key. -/
def value? : Key → Entry → Option Text
  | directory, .directory v => some v
  | extension, .extension v => some v
  | lineMarker, .lineMarker v => some v
  | opening, .opening v => some v
  | closing, .closing v => some v
  | continuation, .continuation v => some v
  | _, _ => none

@[simp] theorem value?_entry (k l : Key) (v : Text) : k.value? (l.entry v) = if k = l then some v else none := by
  cases k <;> cases l <;> rfl

@[simp] theorem value?_recursive (k : Key) (b : Bool) : k.value? (.recursive b) = none := by
  cases k <;> rfl

theorem list_add (k : Key) (d : Draft) (e : Entry) : k.list (d.add e) = k.list d ++ (k.value? e).toList := by
  cases k <;> cases e <;> simp [list, add, value?]

end Key

/-- Drafts are equal if they agree in all lists and in the flag. -/
theorem ext_keys {d d' : Draft} (hlist : ∀ k : Key, k.list d = k.list d') (hflag : d.isRecursive = d'.isRecursive) :
    d = d' := by
  obtain ⟨dirs, exts, flag, line, openings, closings, continuation⟩ := d
  obtain ⟨dirs', exts', flag', line', openings', closings', continuation'⟩ := d'
  have h₁ : dirs = dirs' := hlist .directory
  have h₂ : exts = exts' := hlist .extension
  have h₃ : line = line' := hlist .lineMarker
  have h₄ : openings = openings' := hlist .opening
  have h₅ : closings = closings' := hlist .closing
  have h₆ : continuation = continuation' := hlist .continuation
  have h₇ : flag = flag' := hflag
  rw [h₁, h₂, h₃, h₄, h₅, h₆, h₇]

namespace Entry

/-- The flag that an entry sets. -/
def flag? : Entry → Option Bool
  | recursive b => some b
  | _ => none

end Entry

/-- An entry adds a value to the list of a key, or sets the flag. -/
theorem Entry.cases (e : Entry) : (∃ (k : Key) (v : Text), e = k.entry v) ∨ ∃ b, e = .recursive b := by
  cases e with
  | directory v => exact .inl ⟨.directory, v, rfl⟩
  | extension v => exact .inl ⟨.extension, v, rfl⟩
  | lineMarker v => exact .inl ⟨.lineMarker, v, rfl⟩
  | opening v => exact .inl ⟨.opening, v, rfl⟩
  | closing v => exact .inl ⟨.closing, v, rfl⟩
  | continuation v => exact .inl ⟨.continuation, v, rfl⟩
  | recursive b => exact .inr ⟨b, rfl⟩

/-- The entries list what a draft asks for: the values of each key in order, and the last flag, which is off if
none is given. -/
structure Lists (es : List Entry) (d : Draft) : Prop where
  values : ∀ k : Key, es.filterMap k.value? = k.list d
  flag : (es.filterMap Entry.flag?).getLast?.getD false = d.isRecursive

theorem list_foldl_add (k : Key) (es : List Entry) (d : Draft) :
    k.list (es.foldl add d) = k.list d ++ es.filterMap k.value? := by
  induction es generalizing d with
  | nil => simp
  | cons e es ih =>
    rw [List.foldl_cons, ih, k.list_add, List.append_assoc]
    cases h : k.value? e <;> simp [h]

theorem isRecursive_foldl_add (es : List Entry) (d : Draft) :
    (es.foldl add d).isRecursive = (es.filterMap Entry.flag?).getLast?.getD d.isRecursive := by
  induction es generalizing d with
  | nil => rfl
  | cons e es ih =>
    rw [List.foldl_cons, ih]
    cases e with
    | recursive b => simp [add, Entry.flag?, List.getLast?_cons]
    | _ => rfl

/-- Entries add up to the draft that they list. -/
theorem Lists.foldl_add {es : List Entry} {d : Draft} (h : Lists es d) : es.foldl add .empty = d := by
  apply ext_keys
  · intro k
    rw [list_foldl_add, h.values k]
    cases k <;> rfl
  · rw [isRecursive_foldl_add]
    exact h.flag

/-- All that a draft asks for, key by key. -/
def entries (d : Draft) : List Entry :=
  ([.directory, .extension, .lineMarker, .opening, .closing, .continuation].flatMap fun k : Key =>
    (k.list d).map k.entry) ++ [.recursive d.isRecursive]

theorem filterMap_value?_map_entry (k l : Key) (vs : List Text) :
    (vs.map l.entry).filterMap k.value? = if k = l then vs else [] := by
  have hvalue : k.value? ∘ l.entry = fun v => if k = l then some v else none := by
    funext v
    exact Key.value?_entry k l v
  rw [List.filterMap_map, hvalue]
  by_cases h : k = l <;> simp [h]

theorem filterMap_flag?_map_entry (k : Key) (vs : List Text) : (vs.map k.entry).filterMap Entry.flag? = [] := by
  cases k <;> simp [List.filterMap_map, Function.comp_def, Key.entry, Entry.flag?]

theorem lists_entries (d : Draft) : Lists d.entries d where
  values k := by
    simp only [entries, List.flatMap_cons, List.flatMap_nil, List.filterMap_append, filterMap_value?_map_entry]
    cases k <;> simp
  flag := by
    simp only [entries, List.flatMap_cons, List.flatMap_nil, List.filterMap_append, filterMap_flag?_map_entry]
    simp [Entry.flag?]

namespace KeyValue

/-! ### What a line says -/

/-- The words for a truth value. -/
def words : Bool → List String
  | true => ["true", "yes", "1", "on"]
  | false => ["false", "no", "0", "off"]

theorem boolean?_of_mem {b : Bool} {v : Text} {w : String} (hw : w ∈ words b) (h : Text.lowerAscii v = w.toList) :
    boolean? v = some b := by
  have hstring : (Text.lowerAscii v).toString = w := by rw [h, Text.toString, String.ofList_toList]
  unfold boolean?
  rw [hstring]
  cases b with
  | true => exact if_pos hw
  | false =>
    have hno : w ∉ ["true", "yes", "1", "on"] := by
      have hall : ∀ w ∈ words false, w ∉ words true := by decide
      exact hall w hw
    exact (if_neg hno).trans (if_pos hw)

/-- A key, in any case, and a value ask for an entry. -/
inductive Asks : Text → Text → Entry → Prop where
  | text {key v : Text} (k : Key) (names : Text.upperAscii key = k.word.toList) : Asks key v (k.entry v)
  | flag {key v : Text} {b : Bool} {w : String} (names : Text.upperAscii key = "RECURSIVE_SEARCH".toList)
      (one : w ∈ words b) (spells : Text.lowerAscii v = w.toList) : Asks key v (.recursive b)

theorem Asks.ofPair {key v : Text} {e : Entry} (h : Asks key v e) :
    Entry.ofPair (Text.upperAscii key) v = .ok e := by
  cases h with
  | text k names =>
    rw [names]
    cases k <;> rfl
  | flag names one spells =>
    rw [names]
    have hflag := boolean?_of_mem one spells
    simp [Entry.ofPair, Text.toString, hflag]

/-- What a line says: nothing if it is blank or a remark, else an entry. -/
inductive Says : Text → Option Entry → Prop where
  | blank {line : Text} (white : ∀ c ∈ line, Text.isSpace c = true) : Says line none
  | remark {before rest : Text} {c : Char} (white : ∀ d ∈ before, Text.isSpace d = true) (mark : c = '#' ∨ c = ';') :
      Says (before ++ c :: rest) none
  | entry {before key between after v behind : Text} {e : Entry}
      (white : ∀ c ∈ before ++ between ++ after ++ behind, Text.isSpace c = true) (asks : Asks key v e) :
      Says (before ++ key ++ between ++ '=' :: (after ++ v ++ behind)) (some e)

/-- A character that can stand in a key. -/
def isKeyChar (c : Char) : Bool := !Text.isSpace c && c != '=' && c != '#' && c != ';'

theorem toUpper_of_not_isKeyChar {c : Char} (h : isKeyChar c = false) : c.toUpper = c := by
  simp only [isKeyChar, Bool.and_eq_false_iff, Bool.not_eq_false', bne_eq_false_iff_eq] at h
  rcases h with ((h | rfl) | rfl) | rfl
  · exact Text.toUpper_of_isSpace h
  all_goals decide

theorem Asks.isKeyChar {key v : Text} {e : Entry} (h : Asks key v e) : key ≠ [] ∧ ∀ c ∈ key, isKeyChar c = true := by
  have hword : ∃ w : Text, Text.upperAscii key = w ∧ w ≠ [] ∧ w.all KeyValue.isKeyChar = true := by
    cases h with
    | text k names =>
      refine ⟨_, names, ?_⟩
      cases k <;> decide
    | flag names one spells => exact ⟨_, names, by decide⟩
  obtain ⟨w, hw, hnil, hall⟩ := hword
  refine ⟨?_, ?_⟩
  · rintro rfl
    exact hnil hw.symm
  · intro c hc
    have hupper : c.toUpper ∈ w := hw ▸ List.mem_map_of_mem hc
    have hkey := List.all_eq_true.1 hall _ hupper
    by_contra hnot
    rw [toUpper_of_not_isKeyChar (Bool.eq_false_iff.2 hnot)] at hkey
    exact hnot hkey

/-- The value of an entry has no white space around it. -/
def IsTrimmed (e : Entry) : Prop := ∀ k : Key, ∀ v ∈ k.value? e, Text.trim v = v

theorem Asks.trim_eq {key v : Text} {e : Entry} (h : Asks key v e) (he : IsTrimmed e) : Text.trim v = v := by
  cases h with
  | text k names => exact he k v (by simp)
  | @flag b w names one spells =>
    have hall : ∀ b, ∀ w ∈ words b, w.toList.all (fun c => !Text.isSpace c) = true := by decide
    apply Text.trim_eq_self
    intro c hc
    have hlower : c.toLower ∈ w.toList := spells ▸ List.mem_map_of_mem hc
    have hspace := List.all_eq_true.1 (hall b w one) _ hlower
    by_contra hnot
    rw [Text.toLower_of_isSpace (Bool.not_eq_false _ ▸ hnot)] at hspace
    exact hnot (by simpa using hspace)

/-- A line is read as what it says. -/
theorem Says.read_eq {line : Text} {o : Option Entry} (h : Says line o) (ho : ∀ e ∈ o, IsTrimmed e) :
    entry? line = .ok o := by
  cases h with
  | blank white =>
    have htrim : Text.trim line = [] := by
      rw [Text.trim, Text.trimStart_of_isSpace white]
      rfl
    simp [ entry?, htrim, isSilent]
  | @remark before rest c white mark =>
    have hspace : Text.isSpace c = false := by rcases mark with rfl | rfl <;> decide
    have htrim : Text.trim (before ++ c :: rest) = c :: Text.trimEnd rest := by
      rw [Text.trim, Text.trimStart, List.dropWhile_append_of_pos white, List.dropWhile_cons, if_neg (by simp [hspace])]
      exact Text.trimEnd_append_cons (s := []) hspace
    have hsilent : isSilent (c :: Text.trimEnd rest) = true := by
      rcases mark with rfl | rfl <;> rfl
    simp [ entry?, htrim, hsilent]
  | @entry before key between after v behind e white asks =>
    obtain ⟨hnil, hkey⟩ := asks.isKeyChar
    obtain ⟨k, ks, rfl⟩ := List.exists_cons_of_ne_nil hnil
    simp only [KeyValue.isKeyChar, Bool.and_eq_true, Bool.not_eq_true', bne_iff_ne] at hkey
    obtain ⟨⟨⟨hspace, -⟩, hhash⟩, hsemicolon⟩ := hkey k (by simp)
    simp only [List.mem_append] at white
    have htrim : Text.trim (before ++ (k :: ks) ++ between ++ '=' :: (after ++ v ++ behind)) =
        (k :: ks ++ between) ++ '=' :: Text.trimEnd (after ++ v ++ behind) := by
      rw [Text.trim, Text.trimStart, List.append_assoc, List.append_assoc,
        List.dropWhile_append_of_pos fun c hc => white c (.inl (.inl (.inl hc))), List.cons_append,
        List.dropWhile_cons, if_neg (by simp [hspace]), ← List.cons_append, ← List.append_assoc]
      exact Text.trimEnd_append_cons (by decide)
    have hsplit : Text.splitFirst? '=' ((k :: ks ++ between) ++ '=' :: Text.trimEnd (after ++ v ++ behind)) =
        some (k :: ks ++ between, Text.trimEnd (after ++ v ++ behind)) := by
      apply Text.splitFirst?_append_cons
      intro hmem
      rcases List.mem_append.1 hmem with hmem | hmem
      · exact (hkey _ hmem).1.1.2 rfl
      · exact absurd (white _ (.inl (.inl (.inr hmem)))) (by decide)
    have hkeyTrim : Text.trim (k :: ks ++ between) = k :: ks := by
      have hbetween := Text.trim_append (v := []) (t := k :: ks) (w := between) (by simp)
        fun c hc => white c (.inl (.inl (.inr hc)))
      rw [List.nil_append] at hbetween
      rw [hbetween, Text.trim_eq_self fun c hc => (hkey c hc).1.1.1]
    have hvalueTrim : Text.trim (Text.trimEnd (after ++ v ++ behind)) = v := by
      rw [Text.trim_trimEnd, Text.trim_append (fun c hc => white c (.inl (.inr hc))) fun c hc => white c (.inr hc),
        asks.trim_eq (ho e rfl)]
    unfold entry?
    simp only [htrim, hsplit, hkeyTrim, hvalueTrim, asks.ofPair]
    simp [isSilent, hhash, hsemicolon, Except.map]

/-! ### Lines -/

/-- The text is laid out in lines that say these entries, in order. -/
inductive Layout : Text → List Entry → Prop where
  | last {l : Text} {o : Option Entry} (oneLine : '\n' ∉ l) (content : Says l o) : Layout l o.toList
  | line {l t : Text} {o : Option Entry} {es : List Entry} (oneLine : '\n' ∉ l) (content : Says l o) (rest : Layout t es) :
      Layout (l ++ '\n' :: t) (o.toList ++ es)

theorem read_dropLastIf (l : Text) : entry? (Text.dropLastIf '\r' l) = entry? l := by
  rw [ entry?, entry?, Text.trim_dropLastIf]

theorem addLines_cons {l : Text} {o : Option Entry} (h : entry? l = .ok o) (d : Draft) (n : Nat) (ls : List Text) :
    addLines d n (l :: ls) = addLines (o.toList.foldl add d) (n + 1) ls := by
  rw [addLines, h]
  cases o <;> rfl

/-- Lines add what they say to a draft. -/
theorem Layout.addLines_eq {t : Text} {es : List Entry} (h : Layout t es) (hes : ∀ e ∈ es, IsTrimmed e) (d : Draft)
    (n : Nat) : addLines d n (Text.lines t) = .ok (es.foldl add d) := by
  induction h generalizing d n with
  | @last l o oneLine content =>
    have hentry := content.read_eq fun e he => hes e (by simpa using he)
    rw [Text.lines_of_notMem oneLine]
    split
    · -- no line at all, so no entry
      rename_i hnil
      rw [hnil] at hentry
      cases hentry
      rfl
    · rw [addLines_cons hentry]
      rfl
  | @line l t o es oneLine content rest ih =>
    have hentry := content.read_eq fun e he => hes e (List.mem_append_left _ (by simpa using he))
    rw [Text.lines_append_cons oneLine, addLines_cons ((read_dropLastIf l).trans hentry),
      ih fun e he => hes e (List.mem_append_right _ he), List.foldl_append]

/-- A layout of what a draft asks for is read as this draft. -/
theorem Layout.parse_eq {t : Text} {es : List Entry} {d : Draft} (h : Layout t es) (hes : Lists es d)
    (htrim : ∀ k : Key, ∀ v ∈ k.list d, Text.trim v = v) : parse t = .ok d := by
  have htrimmed : ∀ e ∈ es, IsTrimmed e := by
    intro e he k v hv
    exact htrim k v (hes.values k ▸ List.mem_filterMap.2 ⟨e, he, hv⟩)
  rw [parse, h.addLines_eq htrimmed, hes.foldl_add]

/-! ### Every draft can be laid out -/

theorem exists_line (e : Entry) (h : ∀ k : Key, ∀ v ∈ k.value? e, '\n' ∉ v) : ∃ l, '\n' ∉ l ∧ Says l (some e) := by
  -- the shortest line: no white space at all
  have hline : ∀ key v : Text, Asks key v e → Says (key ++ '=' :: v) (some e) := by
    intro key v hasks
    have hshort := @Says.entry [] key [] [] v [] e (by simp) hasks
    simpa using hshort
  rcases e.cases with ⟨k, v, rfl⟩ | ⟨b, rfl⟩
  · refine ⟨k.word.toList ++ '=' :: v, ?_, hline _ _ (.text k ?_)⟩
    · have hv := h k v (by simp)
      have hword : '\n' ∉ k.word.toList := by cases k <;> decide
      simp [hv, hword]
    · cases k <;> decide
  · cases b with
    | true => exact ⟨_, by decide, hline "RECURSIVE_SEARCH".toList "true".toList (.flag (w := "true") rfl (by decide) rfl)⟩
    | false =>
      exact ⟨_, by decide, hline "RECURSIVE_SEARCH".toList "false".toList (.flag (w := "false") rfl (by decide) rfl)⟩

theorem exists_layout {es : List Entry} (h : ∀ e ∈ es, ∀ k : Key, ∀ v ∈ k.value? e, '\n' ∉ v) : ∃ t, Layout t es := by
  induction es with
  | nil => exact ⟨[], .last (by simp) (.blank (by simp))⟩
  | cons e es ih =>
    obtain ⟨l, honeLine, hline⟩ := exists_line e (h e (List.mem_cons_self ..))
    obtain ⟨t, ht⟩ := ih fun e he => h e (List.mem_cons_of_mem _ he)
    exact ⟨l ++ '\n' :: t, .line honeLine hline ht⟩

/-- What a draft asks for can be laid out, if each text has one line. -/
theorem exists_layout_lists {d : Draft} (h : ∀ k : Key, ∀ v ∈ k.list d, '\n' ∉ v) :
    ∃ t es, Layout t es ∧ Lists es d := by
  have hlists := d.lists_entries
  have honeLine : ∀ e ∈ d.entries, ∀ k : Key, ∀ v ∈ k.value? e, '\n' ∉ v := by
    intro e he k v hv
    exact h k v (hlists.values k ▸ List.mem_filterMap.2 ⟨e, he, hv⟩)
  obtain ⟨t, ht⟩ := exists_layout honeLine
  exact ⟨t, d.entries, ht, hlists⟩

end KeyValue

end Draft

end LineCensus
