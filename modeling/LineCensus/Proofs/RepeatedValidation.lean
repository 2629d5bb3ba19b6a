import LineCensus.Proofs.ConfigGrammar
import LineCensus.Proofs.Validation

/-!
# Settings asked for again

Settings can be asked for again by the draft that says just what they say (`Settings.draft`). Directories, markers and
the flag come back as they are, since the marker lists pass all checks a second time (`Acceptable.draft_settings`).
Extensions come back as they are unless white space stood directly behind leading dots: this is no white space around
the extension that was given, so it is kept, but it is white space around the extension that is given again
(`plainExtension_plainExtension_iff`).
-/

namespace LineCensus

namespace Text

theorem trimStart_eq_self_iff {t : Text} : trimStart t = t ↔ ∀ c rest, t = c :: rest → isSpace c = false := by
  cases t with
  | nil => exact iff_of_true rfl nofun
  | cons c t =>
    rw [trimStart, List.dropWhile_eq_self_iff]
    constructor
    · rintro h _ _ ⟨⟩
      exact eq_false_of_ne_true (h (Nat.succ_pos _))
    · intro h _
      exact ne_true_of_eq_false (h c t rfl)

theorem trimEnd_trimEnd (t : Text) : trimEnd (trimEnd t) = trimEnd t := by
  obtain ⟨w, ht, hw⟩ := exists_trimEnd_append t
  calc trimEnd (trimEnd t) = trimEnd (trimEnd t ++ w) := (trimEnd_append_of_isSpace hw).symm
    _ = trimEnd t := by rw [← ht]

/-- White space at the end of a part is white space at the end of the text. -/
theorem trimEnd_eq_self_of_append {s t : Text} (h : trimEnd (s ++ t) = s ++ t) : trimEnd t = t := by
  unfold trimEnd at h ⊢
  rw [List.reverse_eq_iff, List.reverse_append, List.dropWhile_eq_self_iff] at h
  rw [List.reverse_eq_iff, List.dropWhile_eq_self_iff]
  intro hlength
  have hlast := h (by rw [List.length_append]; omega)
  rwa [List.getElem_append_left hlength] at hlast

theorem length_trimEnd_le (t : Text) : (trimEnd t).length ≤ t.length := by
  obtain ⟨w, ht, -⟩ := exists_trimEnd_append t
  have hlength := congrArg List.length ht
  rw [List.length_append] at hlength
  omega

end Text

/-- The draft that asks for just these settings. -/
def Settings.draft (s : Settings) : Draft where
  directories := s.directories
  extensions := s.extensions
  isRecursive := s.isRecursive
  markers :=
    ⟨s.markers.line, s.markers.block.map BlockPair.opening, s.markers.block.map BlockPair.closing,
      s.markers.continuation⟩

namespace Draft

open Text (trim trimStart trimEnd isSpace)

/-! ### Extensions -/

section Extensions

variable {e : Text}

/-- Without the white space around it, the extension has white space directly behind leading dots. -/
def HasBlankBehindDots (e : Text) : Prop :=
  ∃ dots c rest, trim e = dots ++ c :: rest ∧ (∀ d ∈ dots, d = '.') ∧ isSpace c = true

/-- Leading dots and white space are all that is dropped. -/
theorem exists_dots (e : Text) : ∃ dots, trim e = dots ++ plainExtension e ∧ ∀ d ∈ dots, d = '.' := by
  refine ⟨(trim e).takeWhile (· = '.'), List.takeWhile_append_dropWhile.symm, fun d hd => ?_⟩
  have hdot := List.mem_takeWhile_imp (p := fun d => decide (d = '.')) hd
  exact of_decide_eq_true hdot

theorem head?_plainExtension (e : Text) : (plainExtension e).head? ≠ some '.' := by
  intro hhead
  have hnot := List.head?_dropWhile_not (fun d => decide (d = '.')) (trim e)
  rw [plainExtension] at hhead
  rw [hhead] at hnot
  cases hnot

theorem trimEnd_plainExtension (e : Text) : trimEnd (plainExtension e) = plainExtension e := by
  obtain ⟨dots, he, -⟩ := exists_dots e
  apply Text.trimEnd_eq_self_of_append (s := dots)
  rw [← he]
  exact Text.trimEnd_trimEnd _

theorem length_plainExtension_le (e : Text) : (plainExtension e).length ≤ (trimStart e).length :=
  calc (plainExtension e).length ≤ (trim e).length := (List.dropWhile_suffix _).length_le
    _ ≤ (trimStart e).length := Text.length_trimEnd_le _

/-- An extension that was made plain is plain, unless it begins with white space. -/
theorem plainExtension_plainExtension_iff :
    plainExtension (plainExtension e) = plainExtension e ↔ trimStart (plainExtension e) = plainExtension e := by
  have hend := trimEnd_plainExtension e
  have hhead := head?_plainExtension e
  generalize plainExtension e = t at hend hhead
  constructor
  · intro h
    have hle := length_plainExtension_le t
    rw [h] at hle
    exact (List.dropWhile_suffix isSpace).eq_of_length_le hle
  · intro h
    rw [plainExtension, trim, h, hend]
    cases t with
    | nil => rfl
    | cons c t =>
      have hdot : ¬ c = '.' := fun hc => hhead (congrArg some hc)
      simp [hdot]

theorem hasBlankBehindDots_iff :
    HasBlankBehindDots e ↔ ∃ c rest, plainExtension e = c :: rest ∧ isSpace c = true := by
  constructor
  · rintro ⟨dots, c, rest, he, hdots, hc⟩
    have hdot : ¬ c = '.' := by
      rintro rfl
      cases hc
    refine ⟨c, rest, ?_, hc⟩
    rw [plainExtension, he, List.dropWhile_append_of_pos (by simpa using hdots)]
    simp [hdot]
  · rintro ⟨c, rest, he, hc⟩
    obtain ⟨dots, htrim, hdots⟩ := exists_dots e
    exact ⟨dots, c, rest, he ▸ htrim, hdots, hc⟩

instance (e : Text) : Decidable (HasBlankBehindDots e) :=
  decidable_of_iff ((plainExtension e).head?.any isSpace = true) <| by
    rw [hasBlankBehindDots_iff]
    cases plainExtension e <;> simp

/-- Made plain a second time, an extension changes exactly if white space stood behind its dots. -/
theorem plainExtension_ne_iff : plainExtension (plainExtension e) ≠ plainExtension e ↔ HasBlankBehindDots e := by
  rw [ne_eq, plainExtension_plainExtension_iff, Text.trimStart_eq_self_iff, hasBlankBehindDots_iff]
  simp only [not_forall, Bool.not_eq_false, exists_prop]

end Extensions

/-! ### Drafts -/

variable {d : Draft}

/-- What an acceptable draft gives asks for the same again, with plain extensions. -/
theorem Acceptable.draft_settings (h : d.Acceptable) :
    d.settings.draft = { d with extensions := d.plainExtensions } := by
  obtain ⟨hopenings, hclosings⟩ := Markers.Raw.map_zipWith_pair h.paired
  rw [Settings.draft, h.markers_eq]
  simp only [hopenings, hclosings, settings]

/-- With other extensions a draft stays acceptable, as long as none of them is empty. -/
theorem Acceptable.withExtensions (h : d.Acceptable) {es : List Text} (hne : es ≠ [])
    (hes : ∀ e ∈ es, plainExtension e ≠ []) : Acceptable { d with extensions := es } :=
  { h with extension := hne, extensions := hes }

/-- An empty extension is then the only problem. -/
theorem Acceptable.problems_withExtensions (h : d.Acceptable) {es : List Text} {e : Text} (he : e ∈ es)
    (hempty : plainExtension e = []) : problems { d with extensions := es } = [.emptyExtension] := by
  have hcontains : plainExtensions { d with extensions := es } |>.contains [] :=
    plainExtensions_contains_nil.2 ⟨e, he, hempty⟩
  have hmarkers : d.markers.problems = [] := by
    have hnone := problems_eq_nil_iff.2 h
    simp only [problems, List.append_eq_nil_iff, List.map_eq_nil_iff] at hnone
    exact hnone.1.1
  simp only [problems, hmarkers, if_neg h.directory, if_neg (List.ne_nil_of_mem he), if_pos hcontains,
    List.map_nil, List.nil_append]

/-- What is asked for again is given again with the extensions made plain once more, if none of them comes to
nothing. -/
theorem Acceptable.validate_draft_settings (h : d.Acceptable) :
    d.settings.draft.validate =
      if ∃ e ∈ d.settings.extensions, plainExtension e = [] then .error (refusal [.emptyExtension])
      else .ok { d.settings with extensions := d.settings.extensions.map plainExtension } := by
  rw [h.draft_settings]
  split
  · rename_i hempty
    obtain ⟨e, he, hnil⟩ := hempty
    have hproblems : problems { d with extensions := d.plainExtensions } = [.emptyExtension] :=
      h.problems_withExtensions he hnil
    apply validate_eq_error_iff.2
    rw [hproblems]
    exact ⟨List.cons_ne_nil _ _, rfl⟩
  · rename_i hnone
    have hne : d.plainExtensions ≠ [] := by
      rw [plainExtensions, ne_eq, List.map_eq_nil_iff]
      exact h.extension
    have hagain : Acceptable { d with extensions := d.plainExtensions } :=
      h.withExtensions hne fun e he hnil => hnone ⟨e, he, hnil⟩
    exact validate_eq_ok_iff.2 ⟨hagain, rfl⟩

/-- Plain extensions stay as they are if nowhere white space stood behind leading dots. -/
theorem map_plainExtension_plainExtensions_iff :
    d.plainExtensions.map plainExtension = d.plainExtensions ↔ ∀ e ∈ d.extensions, ¬ HasBlankBehindDots e := by
  rw [plainExtensions, List.map_map, List.map_inj_left]
  refine forall₂_congr fun e _ => ?_
  rw [← plainExtension_ne_iff, not_not, Function.comp_apply]

/-- **Settings that are asked for again are given again**, unless white space stood directly behind the leading dots
of an extension. No extension that is given is empty, has a leading dot, or ends with white space, and the draft that
asks for the settings gives them with the extensions made plain once more; these are the same exactly if no extension
begins with the white space behind its dots. -/
theorem validate_again {d : Draft} {s : Settings} (h : d.validate = .ok s) :
    (∀ e ∈ s.extensions, e ≠ [] ∧ e.head? ≠ some '.' ∧ trimEnd e = e) ∧
      (s.draft.validate = .ok s ↔ ∀ e ∈ d.extensions, ¬ HasBlankBehindDots e) ∧
      ((∀ e ∈ d.extensions, ¬ HasBlankBehindDots e) → ∀ e ∈ s.extensions, trim e = e ∧ plainExtension e ≠ []) ∧
      s.draft.validate =
        if ∃ e ∈ s.extensions, plainExtension e = [] then .error (refusal [.emptyExtension])
        else .ok { s with extensions := s.extensions.map plainExtension } := by
  obtain ⟨haccept, rfl⟩ := validate_eq_ok_iff.1 h
  have hagain := haccept.validate_draft_settings
  have hgiven : ∀ e ∈ d.settings.extensions, e ≠ [] ∧ e.head? ≠ some '.' ∧ trimEnd e = e := by
    intro e he
    obtain ⟨raw, hraw, rfl⟩ := List.mem_map.1 he
    exact ⟨haccept.extensions raw hraw, head?_plainExtension raw, trimEnd_plainExtension raw⟩
  have hplain : (∀ e ∈ d.extensions, ¬ HasBlankBehindDots e) → ∀ e ∈ d.settings.extensions, plainExtension e = e := by
    intro hnone e he
    obtain ⟨raw, hraw, rfl⟩ := List.mem_map.1 he
    exact not_not.1 fun hne => hnone raw hraw (plainExtension_ne_iff.1 hne)
  refine ⟨hgiven, ⟨fun hok => ?_, fun hnone => ?_⟩, fun hnone e he => ?_, hagain⟩
  · rw [hok] at hagain
    split at hagain
    · cases hagain
    · have hsame := congrArg Settings.extensions (Except.ok.inj hagain)
      exact map_plainExtension_plainExtensions_iff.1 hsame.symm
  · have hsame : d.settings.extensions.map plainExtension = d.settings.extensions :=
      map_plainExtension_plainExtensions_iff.2 hnone
    rw [hagain, if_neg, hsame]
    rintro ⟨e, he, hnil⟩
    rw [hplain hnone e he] at hnil
    exact (hgiven e he).1 hnil
  · have hsame := hplain hnone e he
    obtain ⟨hne, -, hend⟩ := hgiven e he
    constructor
    · obtain ⟨raw, hraw, rfl⟩ := List.mem_map.1 he
      rw [trim, plainExtension_plainExtension_iff.1 hsame, hend]
    · rwa [hsame]

/-- Dots, white space around extensions and a text that opens and closes blocks; and an extension that comes to
nothing when it is given again. -/
theorem validate_again_dotted :
    (let d : Draft := ⟨["src".toList], ["\t..CPP ".toList, ".tar.gz".toList, "h".toList], true,
        ⟨["//".toList, "//".toList], ["''".toList, "/*".toList], ["''".toList, "*/".toList], ["\\".toList]⟩⟩
      ∃ s, d.validate = .ok s ∧ s.extensions = ["CPP".toList, "tar.gz".toList, "h".toList] ∧
        (∀ e ∈ d.extensions, ¬ HasBlankBehindDots e) ∧ s.draft.validate = .ok s) ∧
    let d : Draft := ⟨["src".toList], [". .".toList], false, .empty⟩
    ∃ s, d.validate = .ok s ∧ s.extensions = [" .".toList] ∧
      s.draft.validate = .error (refusal [.emptyExtension]) := by
  constructor
  · intro d
    have hs : d.validate = .ok d.settings := rfl
    have hnone : ∀ e ∈ d.extensions, ¬ HasBlankBehindDots e := by decide
    obtain ⟨-, hagain, -⟩ := validate_again hs
    exact ⟨_, hs, rfl, hnone, hagain.2 hnone⟩
  · intro d
    have hs : d.validate = .ok d.settings := rfl
    obtain ⟨-, -, -, hagain⟩ := validate_again hs
    have hempty : ∃ e ∈ d.settings.extensions, plainExtension e = [] := by decide
    exact ⟨_, hs, rfl, hagain.trans (if_pos hempty)⟩

/-- White space behind a dot stays in front of the extension that is given, and is lost when this is asked for
again. -/
theorem blank_behind_dot_lost :
    let d : Draft := ⟨["src".toList], [". x".toList], false, .empty⟩
    let s : Settings := ⟨["src".toList], [" x".toList], false, .empty⟩
    d.validate = .ok s ∧ trim " x".toList ≠ " x".toList ∧
      s.draft.validate = .ok { s with extensions := ["x".toList] } ∧
      ¬ ∀ (d : Draft) (s : Settings), d.validate = .ok s → s.draft.validate = .ok s := by
  intro d s
  have hs : d.validate = .ok s := rfl
  have hagain : s.draft.validate = .ok { s with extensions := ["x".toList] } := rfl
  refine ⟨hs, by decide, hagain, fun h => ?_⟩
  have hsame := congrArg Settings.extensions (Except.ok.inj ((h d s hs).symm.trans hagain))
  revert hsame
  decide

end Draft

end LineCensus
