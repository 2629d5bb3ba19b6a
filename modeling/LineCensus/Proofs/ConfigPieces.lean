import LineCensus.Proofs.ConfigGrammar

/-!
# Configuration lines in pieces

Every line is read by itself, so reading a text is reading its lines one after the other: the first line that cannot
be read is the one that is reported (`KeyValue.addLines_eq_error_iff`), and otherwise the lines add what they say
(`KeyValue.addLines_eq_ok_iff`). A text that is cut behind a line feed is read piece by piece (`KeyValue.parse_pieces`).
-/

namespace LineCensus

namespace Text

/-! ### Lines of pieces -/

theorem isEnded_of_append {l t : Text} (h : l ++ '\n' :: t = [] ∨ (l ++ '\n' :: t).getLast? = some '\n') :
    t = [] ∨ t.getLast? = some '\n' := by
  have hlast : (l ++ '\n' :: t).getLast? = some '\n' := h.resolve_left (by simp)
  rw [List.getLast?_append, List.getLast?_cons] at hlast
  cases hend : t.getLast? with
  | none => exact .inl (List.getLast?_eq_none_iff.1 hend)
  | some c =>
    rw [hend] at hlast
    exact .inr hlast

/-- A text of one line that is ended by nothing is empty, if it is ended. -/
theorem eq_nil_of_notMem {l : Text} (h : '\n' ∉ l) (hl : l = [] ∨ l.getLast? = some '\n') : l = [] :=
  hl.resolve_right fun hlast => h (List.mem_of_getLast? hlast)

theorem lines_append {s : Text} (hs : s = [] ∨ s.getLast? = some '\n') (t : Text) :
    lines (s ++ t) = lines s ++ lines t := by
  induction s using line_induction with
  | last l hl =>
    rw [eq_nil_of_notMem hl hs]
    rfl
  | line l s hl ih =>
    rw [List.append_assoc, List.cons_append, lines_append_cons hl, lines_append_cons hl, ih (isEnded_of_append hs),
      List.cons_append]

/-- An ended text has as many lines as line feeds. -/
theorem length_lines {s : Text} (hs : s = [] ∨ s.getLast? = some '\n') : (lines s).length = s.count '\n' := by
  induction s using line_induction with
  | last l hl =>
    rw [eq_nil_of_notMem hl hs]
    rfl
  | line l s hl ih =>
    rw [lines_append_cons hl, List.length_cons, ih (isEnded_of_append hs), List.count_append, List.count_cons_self,
      List.count_eq_zero.2 hl, Nat.zero_add]

theorem dropLastIf_subset (c : Char) (t : Text) : dropLastIf c t ⊆ t := by
  unfold dropLastIf
  split
  · exact (List.dropLast_sublist t).subset
  · exact List.Subset.refl t

theorem notMem_of_mem_lines {t l : Text} (h : l ∈ lines t) : '\n' ∉ l := by
  induction t using line_induction with
  | last l' hl' =>
    rw [lines_of_notMem hl'] at h
    split at h
    · cases h
    · rwa [List.mem_singleton.1 h]
  | line l' t hl' ih =>
    rw [lines_append_cons hl'] at h
    rcases List.mem_cons.1 h with rfl | h
    · exact fun hfeed => hl' (dropLastIf_subset '\r' l' hfeed)
    · exact ih h

end Text

namespace Draft.KeyValue

/-! ### Lines one after the other -/

/-- The entries of a line: one or none. -/
def said (line : Text) : List Entry :=
  match entry? line with
  | .ok o => o.toList
  | .error _ => []

variable {d d' : Draft} {n k : Nat} {l : Text} {ls : List Text} {f : Fault}

theorem addLines_cons_error (h : entry? l = .error f) (d : Draft) (n : Nat) (ls : List Text) :
    addLines d n (l :: ls) = .error (n, f) := by
  rw [addLines, h]

/-- Lines that are all read add what they say. -/
theorem addLines_eq_ok_iff :
    addLines d n ls = .ok d' ↔ (∀ l ∈ ls, ∃ o, entry? l = .ok o) ∧ d' = (ls.flatMap said).foldl add d := by
  induction ls generalizing d n with
  | nil => simp [addLines, eq_comm]
  | cons l ls ih =>
    cases hentry : entry? l with
    | error f => simp [addLines_cons_error hentry, hentry]
    | ok o =>
      have hsaid : said l = o.toList := by rw [said, hentry]
      rw [addLines_cons hentry, ih, List.flatMap_cons, hsaid, List.foldl_append]
      simp [hentry]

/-- The first line that cannot be read is reported, with its number. -/
theorem addLines_eq_error_iff :
    addLines d n ls = .error (k, f) ↔ ∃ before l after, ls = before ++ l :: after ∧ k = n + before.length ∧
      (∀ b ∈ before, ∃ o, entry? b = .ok o) ∧ entry? l = .error f := by
  induction ls generalizing d n with
  | nil => simp [addLines]
  | cons l ls ih =>
    cases hentry : entry? l with
    | error g =>
      rw [addLines_cons_error hentry]
      constructor
      · intro h
        obtain ⟨rfl, rfl⟩ := Prod.mk.inj (Except.error.inj h)
        exact ⟨[], l, ls, rfl, rfl, by simp, hentry⟩
      · rintro ⟨before, l', after, hls, rfl, hbefore, hl'⟩
        cases before with
        | nil =>
          obtain ⟨rfl, -⟩ := List.cons.inj hls
          rw [hentry] at hl'
          rw [Except.error.inj hl']
          rfl
        | cons b before =>
          -- the line that cannot be read would stand in front of the first such line
          obtain ⟨rfl, -⟩ := List.cons.inj hls
          obtain ⟨o, ho⟩ := hbefore l List.mem_cons_self
          rw [hentry] at ho
          cases ho
    | ok o =>
      rw [addLines_cons hentry, ih]
      constructor
      · rintro ⟨before, l', after, rfl, rfl, hbefore, hl'⟩
        refine ⟨l :: before, l', after, rfl, ?_, ?_, hl'⟩
        · rw [List.length_cons]
          omega
        · intro b hb
          rcases List.mem_cons.1 hb with rfl | hb
          · exact ⟨o, hentry⟩
          · exact hbefore b hb
      · rintro ⟨before, l', after, hls, rfl, hbefore, hl'⟩
        cases before with
        | nil =>
          obtain ⟨rfl, -⟩ := List.cons.inj hls
          rw [hentry] at hl'
          cases hl'
        | cons b before =>
          obtain ⟨rfl, rfl⟩ := List.cons.inj hls
          refine ⟨before, l', after, rfl, ?_, fun b hb => hbefore b (List.mem_cons_of_mem _ hb), hl'⟩
          rw [List.length_cons]
          omega

theorem exists_parse_iff {t : Text} : (∃ d, parse t = .ok d) ↔ ∀ l ∈ Text.lines t, ∃ o, entry? l = .ok o := by
  simp only [parse, addLines_eq_ok_iff, exists_and_left, exists_eq, and_true]

/-! ### One line as a text -/

theorem parse_of_notMem (h : '\n' ∉ l) : parse l = addLines .empty 1 [l] := by
  rw [parse, Text.lines_of_notMem h]
  split
  · rename_i hnil
    rw [hnil]
    rfl
  · rfl

theorem exists_parse_line_iff (h : '\n' ∉ l) : (∃ d, parse l = .ok d) ↔ ∃ o, entry? l = .ok o := by
  rw [parse_of_notMem h]
  simp only [addLines_eq_ok_iff, List.mem_singleton, forall_eq, exists_and_left, exists_eq, and_true]

theorem parse_line_eq_error_iff (h : '\n' ∉ l) : parse l = .error (1, f) ↔ entry? l = .error f := by
  rw [parse_of_notMem h, addLines_eq_error_iff]
  constructor
  · rintro ⟨before, l', after, hl, hlength, -, hl'⟩
    have hbefore : before = [] := List.eq_nil_of_length_eq_zero (by omega)
    rw [hbefore] at hl
    obtain ⟨rfl, -⟩ := List.cons.inj hl
    exact hl'
  · intro hl
    exact ⟨[], l, [], rfl, rfl, by simp, hl⟩

/-! ### The flag -/

/-- Some line of the text sets the flag. -/
def SetsFlag (t : Text) : Prop := ∃ l ∈ Text.lines t, ∃ b, Says l (some (.recursive b))

theorem says_recursive_iff {b : Bool} : Says l (some (.recursive b)) ↔ Entry.recursive b ∈ said l := by
  have hentry : entry? l = .ok (some (.recursive b)) ↔ Says l (some (.recursive b)) := by
    rw [entry?_eq_ok_iff, and_iff_left]
    intro e he k v hv
    rw [← Option.some.inj he, Key.value?_recursive] at hv
    cases hv
  rw [← hentry, said]
  cases entry? l with
  | error f => simp
  | ok o => simp

/-- The last flag counts, whether it is set in this text or before it. -/
theorem flag_of_setsFlag {t : Text} {d e r : Draft} (he : e.isRecursive =
      (((Text.lines t).flatMap said).filterMap Entry.flag?).getLast?.getD false)
    (hr : r.isRecursive = (((Text.lines t).flatMap said).filterMap Entry.flag?).getLast?.getD d.isRecursive) :
    (SetsFlag t → r.isRecursive = e.isRecursive) ∧ (¬ SetsFlag t → r.isRecursive = d.isRecursive) := by
  have hnone : ¬ SetsFlag t ↔ ((Text.lines t).flatMap said).filterMap Entry.flag? = [] := by
    rw [SetsFlag, List.filterMap_eq_nil_iff]
    simp only [says_recursive_iff, List.mem_flatMap]
    constructor
    · rintro hno e ⟨l, hl, he⟩
      cases e with
      | recursive b => exact absurd ⟨l, hl, b, he⟩ hno
      | _ => rfl
    · rintro hall ⟨l, hl, b, hb⟩
      cases hall _ ⟨l, hl, hb⟩
  refine ⟨fun hsets => ?_, fun hno => ?_⟩
  · have hne : ((Text.lines t).flatMap said).filterMap Entry.flag? ≠ [] := fun h => hnone.2 h hsets
    rw [he, hr, List.getLast?_eq_some_getLast hne]
    rfl
  · rw [hr, hnone.1 hno]
    rfl

/-! ### Pieces -/

theorem Fault.exists_message (f : Fault) : ∃ m, ∀ n, f.message n = "line " ++ toString n ++ ": " ++ m := by
  have hsplit : ∀ (n : Nat) (m : String), "line " ++ toString n ++ ": " ++ m = "line " ++ toString n ++ (": " ++ m) :=
    fun n m => String.append_assoc
  cases f with
  | noPair =>
    refine ⟨"expected KEY = value", fun n => ?_⟩
    rw [hsplit]
    rfl
  | unknownKey key =>
    refine ⟨"unknown key '" ++ key.toString ++ "'", fun n => ?_⟩
    rw [hsplit, message, String.append_assoc, String.append_assoc]
    rfl
  | notBoolean v =>
    refine ⟨"'" ++ v.toString ++ "' is not a boolean", fun n => ?_⟩
    rw [hsplit, message, String.append_assoc, String.append_assoc]
    rfl

section

variable {s : Text} (hs : s = [] ∨ s.getLast? = some '\n') (t : Text)

include hs

/-- Nothing behind a fault is looked at. -/
theorem parse_append_of_error (h : parse s = .error (n, f)) : parse (s ++ t) = .error (n, f) := by
  obtain ⟨before, l, after, hlines, hn, hbefore, hl⟩ := addLines_eq_error_iff.1 h
  refine addLines_eq_error_iff.2 ⟨before, l, after ++ Text.lines t, ?_, hn, hbefore, hl⟩
  rw [Text.lines_append hs, hlines, List.append_assoc, List.cons_append]

/-- A fault behind text that can be read stands as many lines further down as that has. -/
theorem parse_append_of_ok_error (hd : parse s = .ok d) (hf : parse t = .error (n, f)) :
    parse (s ++ t) = .error (n + s.count '\n', f) := by
  obtain ⟨hread, -⟩ := addLines_eq_ok_iff.1 hd
  obtain ⟨before, l, after, hlines, rfl, hbefore, hl⟩ := addLines_eq_error_iff.1 hf
  refine addLines_eq_error_iff.2 ⟨Text.lines s ++ before, l, after, ?_, ?_, ?_, hl⟩
  · rw [Text.lines_append hs, hlines, List.append_assoc]
  · rw [List.length_append, Text.length_lines hs]
    omega
  · intro b hb
    exact (List.mem_append.1 hb).elim (hread b) (hbefore b)

/-- Text that can be read goes on from the draft of the text before it. -/
theorem parse_append_of_ok {e : Draft} (hd : parse s = .ok d) (he : parse t = .ok e) :
    parse (s ++ t) = .ok (((Text.lines t).flatMap said).foldl add d) := by
  obtain ⟨hreadS, rfl⟩ := addLines_eq_ok_iff.1 hd
  obtain ⟨hreadT, -⟩ := addLines_eq_ok_iff.1 he
  refine addLines_eq_ok_iff.2 ⟨fun l hl => ?_, ?_⟩
  · rw [Text.lines_append hs] at hl
    exact (List.mem_append.1 hl).elim (hreadS l) (hreadT l)
  · rw [Text.lines_append hs, List.flatMap_append, List.foldl_append]

end

/-- The line that is reported is the first that cannot be read. -/
theorem parse_eq_error_iff {u : Text} :
    parse u = .error (n, f) ↔ ∃ before l after, Text.lines u = before ++ l :: after ∧ n = before.length + 1 ∧
      (∀ b ∈ before, ∃ d, parse b = .ok d) ∧ parse l = .error (1, f) := by
  rw [parse, addLines_eq_error_iff]
  refine exists_congr fun before => exists_congr fun l => exists_congr fun after => ?_
  refine and_congr_right fun hlines => ?_
  have hline : ∀ b ∈ before ++ l :: after, '\n' ∉ b := fun b hb => Text.notMem_of_mem_lines (hlines ▸ hb)
  rw [Nat.add_comm 1, parse_line_eq_error_iff (hline l (by simp))]
  refine and_congr_right fun _ => and_congr_left fun _ => forall₂_congr fun b hb => ?_
  rw [exists_parse_line_iff (hline b (List.mem_append_left _ hb))]

/-- **Configuration lines are read piece by piece**, where the first piece is empty or ends with a line feed. A fault
of the first piece is the fault of the whole; a fault of the second one is, too, if the first has none, at its line
behind those of the first; and two pieces without faults come to the values of both, with the flag of the second if it
sets it. So the first line that cannot be read is the one that is reported, a text is read exactly if each of its
lines is, and nothing but the number in front of a message says where the line stands. -/
theorem parse_pieces {s : Text} (hs : s = [] ∨ s.getLast? = some '\n') (t : Text) :
    (∀ n f, parse s = .error (n, f) → parse (s ++ t) = .error (n, f)) ∧
    (∀ d n f, parse s = .ok d → parse t = .error (n, f) → parse (s ++ t) = .error (n + s.count '\n', f)) ∧
    (∀ d e, parse s = .ok d → parse t = .ok e → ∃ r, parse (s ++ t) = .ok r ∧
      (∀ k : Key, k.list r = k.list d ++ k.list e) ∧
      (SetsFlag t → r.isRecursive = e.isRecursive) ∧ (¬ SetsFlag t → r.isRecursive = d.isRecursive)) ∧
    (∀ u n f, parse u = .error (n, f) ↔ ∃ before l after, Text.lines u = before ++ l :: after ∧
      n = before.length + 1 ∧ (∀ b ∈ before, ∃ d, parse b = .ok d) ∧ parse l = .error (1, f)) ∧
    (∀ u, (∃ d, parse u = .ok d) ↔ ∀ l ∈ Text.lines u, ∃ d, parse l = .ok d) ∧
    ∀ f : Fault, ∃ m, ∀ n, f.message n = "line " ++ toString n ++ ": " ++ m := by
  refine ⟨fun _ _ => parse_append_of_error hs t, fun _ _ _ => parse_append_of_ok_error hs t, ?_,
    fun _ _ _ => parse_eq_error_iff, fun u => ?_, Fault.exists_message⟩
  · intro d e hd he
    have hflag := (addLines_eq_ok_iff.1 he).2
    refine ⟨_, parse_append_of_ok hs t hd he, fun k => ?_, ?_⟩
    · have hnil : k.list Draft.empty = [] := by cases k <;> rfl
      rw [list_foldl_add, hflag, list_foldl_add k _ .empty, hnil, List.nil_append]
    · refine flag_of_setsFlag ?_ (isRecursive_foldl_add _ _)
      rw [hflag]
      exact isRecursive_foldl_add _ _
  · rw [exists_parse_iff]
    exact forall₂_congr fun l hl => (exists_parse_line_iff (Text.notMem_of_mem_lines hl)).symm

/-- A fault in the second piece stands behind three lines, one of which is blank, and a flag that the second piece
does not set is kept. -/
theorem parse_pieces_counted :
    let s := "COMMENT = //\r\n\nrecursive_search=1\n".toList
    parse (s ++ "EXTENSION=h\n# x\nCOLOR = red".toList) = .error (6, .unknownKey "COLOR".toList) ∧
      ∃ r, parse (s ++ "COMMENT=#".toList) = .ok r ∧ Key.list r .lineMarker = ["//".toList, "#".toList] ∧
        r.isRecursive = true := by
  intro s
  have hs : s = [] ∨ s.getLast? = some '\n' := .inr (by decide)
  have hparse : parse s = .ok ⟨[], [], true, ⟨["//".toList], [], [], []⟩⟩ := by decide
  obtain ⟨-, hfault, -⟩ := parse_pieces hs "EXTENSION=h\n# x\nCOLOR = red".toList
  obtain ⟨-, -, hboth, -⟩ := parse_pieces hs "COMMENT=#".toList
  refine ⟨hfault _ 3 _ hparse (by decide), ?_⟩
  obtain ⟨r, hr, hlist, -, hflag⟩ := hboth _ ⟨[], [], false, ⟨["#".toList], [], [], []⟩⟩ hparse (by decide)
  refine ⟨r, hr, hlist .lineMarker, hflag ?_⟩
  rintro ⟨l, hl, b, hb⟩
  rw [Text.lines_of_notMem (by decide), if_neg (by decide), List.mem_singleton] at hl
  subst hl
  exact absurd (says_recursive_iff.1 hb) (by cases b <;> decide)

end Draft.KeyValue

end LineCensus
