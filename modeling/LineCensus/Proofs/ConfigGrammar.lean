import LineCensus.Proofs.ConfigLines

/-!
# Which texts are configuration lines

A line is read exactly if it says something or is silent (`KeyValue.entry?_eq_ok_iff`), so a text is read as a
draft exactly if it lays out what the draft asks for (`KeyValue.parse_eq_ok_iff`). Values may be empty, hold `=`, or
look like a remark or like another entry; only white space around them and line feeds cannot be kept.
-/

namespace LineCensus

namespace Text

theorem toList_of_toString {t : Text} {s : String} (h : t.toString = s) : t = s.toList := by
  rw [← h, toString, String.toList_ofList]

/-- A text is what is left of it when it is trimmed, with white space around. -/
theorem exists_trim (t : Text) :
    ∃ v w, t = v ++ trim t ++ w ∧ (∀ c ∈ v, isSpace c = true) ∧ ∀ c ∈ w, isSpace c = true := by
  obtain ⟨w, hw, hwhite⟩ := exists_trimEnd_append (trimStart t)
  refine ⟨t.takeWhile isSpace, w, ?_, fun c hc => List.mem_takeWhile_imp hc, hwhite⟩
  rw [List.append_assoc, trim, ← hw, trimStart, List.takeWhile_append_dropWhile]

theorem trim_trim (t : Text) : trim (trim t) = trim t := by
  obtain ⟨v, w, ht, hv, hw⟩ := exists_trim t
  calc trim (trim t) = trim (v ++ trim t ++ w) := (trim_append hv hw).symm
    _ = trim t := by rw [← ht]

theorem splitFirst?_eq_some {c : Char} {t u v : Text} (h : splitFirst? c t = some (u, v)) : t = u ++ c :: v := by
  unfold splitFirst? at h
  split at h
  · cases h
  · rename_i d rest hrest
    obtain ⟨rfl, rfl⟩ := Prod.mk.inj (Option.some.inj h)
    have hd : d = c := by
      have hnot := List.head?_dropWhile_not (· != c) t
      simpa [hrest] using hnot
    calc t = t.takeWhile (· != c) ++ t.dropWhile (· != c) := List.takeWhile_append_dropWhile.symm
      _ = t.takeWhile (· != c) ++ c :: rest := by rw [hrest, hd]

/-- A text is read line by line. -/
@[elab_as_elim]
theorem line_induction {motive : Text → Prop} (last : ∀ l, '\n' ∉ l → motive l)
    (line : ∀ l t, '\n' ∉ l → motive t → motive (l ++ '\n' :: t)) (t : Text) : motive t := by
  by_cases h : '\n' ∈ t
  · obtain ⟨l, rest, ht, hl⟩ := List.eq_append_cons_of_mem h
    have hlength : rest.length < t.length := by
      rw [ht, List.length_append, List.length_cons]
      omega
    rw [ht]
    exact line l rest hl (line_induction last line rest)
  · exact last t h
termination_by t.length

end Text

namespace Draft.KeyValue

/-! ### What a line that is read says -/

theorem boolean?_eq_some {v : Text} {b : Bool} (h : boolean? v = some b) :
    ∃ w ∈ words b, Text.lowerAscii v = w.toList := by
  simp only [boolean?] at h
  split at h
  · rename_i hyes
    cases h
    exact ⟨_, hyes, Text.toList_of_toString rfl⟩
  · split at h
    · rename_i hno
      cases h
      exact ⟨_, hno, Text.toList_of_toString rfl⟩
    · cases h

/-- A pair from which an entry is made asks for it. -/
theorem asks_of_ofPair {key v : Text} {e : Entry} (h : Entry.ofPair (Text.upperAscii key) v = .ok e) : Asks key v e := by
  have hlist : ∀ k : Key, (Text.upperAscii key).toString = k.word → Asks key v (k.entry v) :=
    fun k hk => .text k (Text.toList_of_toString hk)
  unfold Entry.ofPair at h
  split at h
  · cases h
    exact hlist .directory ‹_›
  · cases h
    exact hlist .extension ‹_›
  · cases h
    exact hlist .lineMarker ‹_›
  · cases h
    exact hlist .opening ‹_›
  · cases h
    exact hlist .closing ‹_›
  · cases h
    exact hlist .continuation ‹_›
  · rename_i hkey
    split at h
    · rename_i b hb
      cases h
      obtain ⟨w, hw, hspells⟩ := boolean?_eq_some hb
      exact .flag (Text.toList_of_toString hkey) hw hspells
    · cases h
  · cases h

/-- An entry has no other value than the one it is asked for with. -/
theorem Asks.value_eq {key v : Text} {e : Entry} (h : Asks key v e) (k : Key) {v' : Text} (hv' : v' ∈ k.value? e) :
    v' = v := by
  cases h with
  | text l names =>
    rw [Key.value?_entry] at hv'
    split at hv'
    · exact (Option.some.inj hv').symm
    · cases hv'
  | flag names one spells =>
    rw [Key.value?_recursive] at hv'
    cases hv'

theorem says_of_isSilent {line : Text} (h : isSilent (Text.trim line) = true) : Says line none := by
  obtain ⟨v, w, hline, hv, hw⟩ := Text.exists_trim line
  rw [hline]
  simp only [isSilent, Bool.or_eq_true, decide_eq_true_eq] at h
  cases hleft : Text.trim line with
  | nil =>
    refine .blank fun c hc => ?_
    rw [List.append_nil] at hc
    exact (List.mem_append.1 hc).elim (hv c) (hw c)
  | cons c rest =>
    have hmark : c = '#' ∨ c = ';' := by simpa [hleft] using h
    rw [List.append_assoc, List.cons_append]
    exact .remark hv hmark

/-- A line that is read says what it is read as, with its value trimmed. -/
theorem says_of_eq_ok {line : Text} {o : Option Entry} (h : entry? line = .ok o) :
    Says line o ∧ ∀ e ∈ o, IsTrimmed e := by
  simp only [ entry?] at h
  split at h
  · rename_i hsilent
    cases h
    exact ⟨says_of_isSilent hsilent, fun e he => absurd he (Option.not_mem_none e)⟩
  · split at h
    · cases h
    · rename_i key value hsplit
      obtain ⟨v, w, hline, hv, hw⟩ := Text.exists_trim line
      obtain ⟨a, b, hkey, ha, hb⟩ := Text.exists_trim key
      obtain ⟨a', b', hvalue, ha', hb'⟩ := Text.exists_trim value
      cases hpair : Entry.ofPair (Text.upperAscii (Text.trim key)) (Text.trim value) with
      | error fault =>
        rw [hpair] at h
        cases h
      | ok e =>
        rw [hpair] at h
        cases h
        have hasks := asks_of_ofPair hpair
        refine ⟨?_, ?_⟩
        · have hwhite : ∀ c ∈ (v ++ a) ++ b ++ a' ++ (b' ++ w), Text.isSpace c = true := by
            intro c hc
            simp only [List.mem_append] at hc
            rcases hc with (((hc | hc) | hc) | hc) | hc | hc
            · exact hv c hc
            · exact ha c hc
            · exact hb c hc
            · exact ha' c hc
            · exact hb' c hc
            · exact hw c hc
          have hwhole : line = (v ++ a) ++ Text.trim key ++ b ++ '=' :: (a' ++ Text.trim value ++ (b' ++ w)) := by
            calc line = v ++ (key ++ '=' :: value) ++ w := by rw [← Text.splitFirst?_eq_some hsplit, ← hline]
              _ = v ++ ((a ++ Text.trim key ++ b) ++ '=' :: (a' ++ Text.trim value ++ b')) ++ w := by
                rw [← hkey, ← hvalue]
              _ = _ := by simp only [List.append_assoc, List.cons_append]
          rw [hwhole]
          exact .entry hwhite hasks
        · intro e' he' k v' hv'
          obtain rfl := Option.some.inj he'
          rw [hasks.value_eq k hv', Text.trim_trim]

theorem entry?_eq_ok_iff {line : Text} {o : Option Entry} :
    entry? line = .ok o ↔ Says line o ∧ ∀ e ∈ o, IsTrimmed e :=
  ⟨says_of_eq_ok, fun h => h.1.read_eq h.2⟩

/-! ### Whole texts -/

theorem addLines_cons_eq_ok {d d' : Draft} {n : Nat} {l : Text} {ls : List Text} (h : addLines d n (l :: ls) = .ok d') :
    ∃ o, entry? l = .ok o ∧ addLines (o.toList.foldl add d) (n + 1) ls = .ok d' := by
  cases hentry : entry? l with
  | error fault =>
    rw [addLines, hentry] at h
    cases h
  | ok o => exact ⟨o, rfl, (addLines_cons hentry d n ls) ▸ h⟩

/-- A text whose lines are all read lays out entries that add up to the draft. -/
theorem exists_layout_of_addLines {t : Text} {d d' : Draft} {n : Nat} (h : addLines d n (Text.lines t) = .ok d') :
    ∃ es, Layout t es ∧ (∀ e ∈ es, IsTrimmed e) ∧ d' = es.foldl add d := by
  induction t using Text.line_induction generalizing d n with
  | last l honeLine =>
    rw [Text.lines_of_notMem honeLine] at h
    split at h
    · rename_i hnil
      cases h
      refine ⟨[], ?_, by simp, rfl⟩
      rw [hnil]
      exact .last (o := none) (by simp) (.blank (by simp))
    · obtain ⟨o, hentry, hrest⟩ := addLines_cons_eq_ok h
      obtain ⟨hsaid, htrimmed⟩ := says_of_eq_ok hentry
      cases hrest
      exact ⟨o.toList, .last honeLine hsaid, fun e he => htrimmed e (by simpa using he), rfl⟩
  | line l t honeLine ih =>
    rw [Text.lines_append_cons honeLine] at h
    obtain ⟨o, hentry, hrest⟩ := addLines_cons_eq_ok h
    rw [read_dropLastIf] at hentry
    obtain ⟨hsaid, htrimmed⟩ := says_of_eq_ok hentry
    obtain ⟨es, hlayout, hes, rfl⟩ := ih hrest
    refine ⟨o.toList ++ es, .line honeLine hsaid hlayout, ?_, by rw [List.foldl_append]⟩
    intro e he
    exact (List.mem_append.1 he).elim (fun ho => htrimmed e (by simpa using ho)) (hes e)

/-- A value stands on the line of its entry. -/
theorem Says.subset {line : Text} {e : Entry} (h : Says line (some e)) (k : Key) {v : Text} (hv : v ∈ k.value? e) :
    v ⊆ line := by
  cases h with
  | entry white asks =>
    obtain rfl := asks.value_eq k hv
    intro c hc
    simp [hc]

theorem Layout.notMem {t : Text} {es : List Entry} (h : Layout t es) (k : Key) :
    ∀ v ∈ es.filterMap k.value?, '\n' ∉ v := by
  have hline : ∀ {l : Text} {o : Option Entry}, '\n' ∉ l → Says l o → ∀ v ∈ o.toList.filterMap k.value?, '\n' ∉ v := by
    intro l o honeLine hsaid v hv hfeed
    cases o with
    | none => cases hv
    | some e => exact honeLine (hsaid.subset k (by simpa using hv) hfeed)
  induction h with
  | last oneLine content => exact hline oneLine content
  | line oneLine content _ ih =>
    intro v hv
    rw [List.filterMap_append, List.mem_append] at hv
    exact hv.elim (hline oneLine content v) (ih v)

theorem lists_foldl_add (es : List Entry) : Lists es (es.foldl add .empty) where
  values k := by
    rw [list_foldl_add]
    cases k <;> rfl
  flag := (isRecursive_foldl_add es .empty).symm

/-- **Configuration lines are read exactly as they are written**: a text is read as a draft exactly if no value of
the draft has a line feed in it or white space around it and the text is a layout of what the draft asks for: one
line for each value, those of one key in order, with the key in any case and any white space around key and value;
lines that set the flag, the last of which counts; blank lines and remarks anywhere. Lines end with a line feed; a
carriage return before it is white space of the line, and the last line need not be ended. -/
theorem parse_eq_ok_iff {t : Text} {d : Draft} :
    parse t = .ok d ↔
      (∀ k : Key, ∀ v ∈ k.list d, Text.trim v = v ∧ '\n' ∉ v) ∧ ∃ es, Layout t es ∧ Lists es d := by
  constructor
  · intro h
    obtain ⟨es, hlayout, htrimmed, rfl⟩ := exists_layout_of_addLines h
    have hlists := lists_foldl_add es
    refine ⟨fun k v hv => ?_, es, hlayout, hlists⟩
    rw [← hlists.values k] at hv
    obtain ⟨e, he, hve⟩ := List.mem_filterMap.1 hv
    exact ⟨htrimmed e he k v hve, hlayout.notMem k v hv⟩
  · rintro ⟨hvalues, es, hlayout, hlists⟩
    exact hlayout.parse_eq hlists fun k v hv => (hvalues k v hv).1

/-- A remark that looks like an entry, a value that looks like one, and an empty value; keys in any case, white space
that is not ASCII, line ends of both kinds, and two flags. -/
theorem parse_eq_ok_iff_odd :
    parse (" ;COMMENT=x\r".toList ++ '\n' :: ("comment\t=\u2003#=; \r".toList ++ '\n' ::
      ("Recursive_Search=0".toList ++ '\n' :: ("COMMENT=".toList ++ '\n' ::
        ("Directory= COMMENT=x".toList ++ '\n' :: "RECURSIVE_SEARCH=oN".toList))))) =
      .ok ⟨["COMMENT=x".toList], [], true, ⟨["#=;".toList, []], [], [], []⟩⟩ := by
  have hwhite : ∀ {w : Text}, w.all Text.isSpace = true → ∀ c ∈ w, Text.isSpace c = true := List.all_eq_true.1
  have hremark : Says " ;COMMENT=x\r".toList none :=
    @Says.remark [' '] "COMMENT=x\r".toList ';' (hwhite rfl) (.inr rfl)
  have hodd : Says "comment\t=\u2003#=; \r".toList (some (.lineMarker "#=;".toList)) :=
    @Says.entry [] "comment".toList ['\t'] ['\u2003'] "#=;".toList [' ', '\r'] _ (hwhite rfl)
      (.text .lineMarker (by decide))
  have hoff : Says "Recursive_Search=0".toList (some (.recursive false)) :=
    @Says.entry [] "Recursive_Search".toList [] [] ['0'] [] _ (hwhite rfl)
      (.flag (w := "0") (by decide) (by decide) (by decide))
  have hempty : Says "COMMENT=".toList (some (.lineMarker [])) :=
    @Says.entry [] "COMMENT".toList [] [] [] [] _ (hwhite rfl) (.text .lineMarker (by decide))
  have hentry : Says "Directory= COMMENT=x".toList (some (.directory "COMMENT=x".toList)) :=
    @Says.entry [] "Directory".toList [] [' '] "COMMENT=x".toList [] _ (hwhite rfl) (.text .directory (by decide))
  have hon : Says "RECURSIVE_SEARCH=oN".toList (some (.recursive true)) :=
    @Says.entry [] "RECURSIVE_SEARCH".toList [] [] "oN".toList [] _ (hwhite rfl)
      (.flag (w := "on") (by decide) (by decide) (by decide))
  have hlayout := Layout.line (by decide) hremark (.line (by decide) hodd (.line (by decide) hoff (.line (by decide)
    hempty (.line (by decide) hentry (.last (by decide) hon)))))
  refine parse_eq_ok_iff.2 ⟨fun k => ?_, _, hlayout, fun k => ?_, rfl⟩
  · cases k <;> decide
  · cases k <;> rfl

end Draft.KeyValue

end LineCensus
