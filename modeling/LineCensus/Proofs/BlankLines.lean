import LineCensus.Proofs.CensusTotals

/-!
# Blank lines

A line is blank for every marker set or for none: whatever is open when it is read, the verdict on it is
`Verdict.whitespace` exactly if it consists of spaces and tabs (`Reading.line_eq_whitespace_iff`). So markers
move lines between comment and code only, and two runs over the same files with different markers agree on
everything else that they count (`Census.run_blank`).
-/

namespace LineCensus

namespace Reading

variable {m : Markers}

/-- What is read behind the indentation is never blank. -/
theorem read_ne_whitespace (hm : m.Progressing) (block : Option Nat) (t : Text) :
    (read m hm block t).1 ≠ .whitespace := by
  fun_induction read m hm block t with
  | case1 => nofun
  | case2 => nofun
  | case3 _ _ _ _ _ ih => exact ih
  | case4 => nofun
  | case5 => nofun
  | case6 => nofun
  | case7 t _ k pair u _ inner ih =>
    have hinner : inner.1 ≠ .whitespace := by
      by_cases hu : u = []
      · simp [inner, hu]
      · simpa [inner, hu] using ih hu
    by_cases hk : 0 < k
    · simp [hk]
    · simpa [hk] using hinner

/-- The lines that are blank are those of spaces and tabs, whatever is open when they are read. -/
theorem line_eq_whitespace_iff (hm : m.Progressing) (carry : Carry) (raw : Text) :
    (line m hm carry raw).1 = .whitespace ↔ Text.isBlank raw = true := by
  rw [← Text.trimIndent_eq_nil_iff]
  by_cases hblank : Text.trimIndent raw = []
  · cases carry <;> simp [line, hblank]
  · have hread := fun block => read_ne_whitespace hm block (Text.trimIndent raw)
    cases carry with
    | idle last => simp [line, hblank, hread]
    | inBlock pair => simp [line, hblank, hread]
    | continuing =>
      by_cases hcontinues : m.continues (Text.trimIndent raw) = true
      · simp [line, hblank, hcontinues]
      · simp [line, hblank, hcontinues]

theorem bucket_eq_blank_iff {v : Verdict} : v.bucket = .blank ↔ v = .whitespace := by
  cases v <;> simp [Verdict.bucket]

theorem countP_blank_file (hm : m.Progressing) (carry : Carry) (lines : List Text) :
    (file m hm carry lines).countP (fun v => v.bucket = .blank) = lines.countP Text.isBlank := by
  induction lines generalizing carry with
  | nil => rfl
  | cons raw rest ih =>
    have hline : ((line m hm carry raw).1.bucket = .blank) = (Text.isBlank raw = true) :=
      propext (bucket_eq_blank_iff.trans (line_eq_whitespace_iff hm carry raw))
    rw [file, List.countP_cons, List.countP_cons, ih]
    simp only [decide_eq_true_eq, hline]

end Reading

theorem Tracker.Reachable.feed_whitespace {m : Markers} (hm : m.Progressing) {t : Tracker} (ht : t.Reachable m)
    (raw : Text) : ∃ v t', t.feed m raw = .ok (v, t') ∧ (v = .whitespace ↔ Text.isBlank raw = true) := by
  obtain ⟨cache, hfeed⟩ := feed_eq_line hm ht.configured raw
  exact ⟨_, _, hfeed, Reading.line_eq_whitespace_iff hm t.carry raw⟩

namespace Census

variable {m : Markers}

/-- Without a watcher no run is refused. -/
theorem settle_none (n i : Nat) (total : Tally) (skipped : List Skipped)
    (outcomes : List (Text × Except Failure Tally)) :
    ∃ census, settle none n i total skipped outcomes = (.ok census, []) := by
  induction outcomes generalizing i total skipped with
  | nil => exact ⟨_, rfl⟩
  | cons e rest ih =>
    obtain ⟨path, result⟩ := e
    cases result with
    | ok tally => exact ih ..
    | error f => exact ih ..

/-- What a run without a watcher counts, besides code. -/
structure CountsBlank (source : Text → Contents) (paths : List Text) (census : Census) : Prop where
  skipped : census.skipped = skippedFiles source none paths
  files : census.tally.files = (countedFiles source none paths).length
  blank : census.tally.blank =
    ((countedFiles source none paths).map fun e => (source e.1).lines.countP Text.isBlank).sum
  total : census.tally.total = ((countedFiles source none paths).map fun e => (source e.1).lines.length).sum

/-- A run without a watcher counts every file that can be read, and of its lines as blank those of spaces and
tabs. -/
theorem exists_countsBlank (hm : m.Progressing) (source : Text → Contents) (paths : List Text) :
    ∃ census, run m source none (.ok paths) = .ok (.ok census, []) ∧ CountsBlank source paths census := by
  have hv : ∀ path, m.classify (source path).lines = .ok (Reading.file m hm (.idle .code) (source path).lines) :=
    fun path => Markers.classify_eq_file hm _
  obtain ⟨result, calls, hrun, hok⟩ := runWatched_ok hv none (.ok paths)
  obtain ⟨census, hnone⟩ := settle_none paths.length 0 .zero [] ((paths.zipIdx 0).map fun e =>
    (e.1, outcome source none (Reading.file m hm (.idle .code) (source e.1).lines) e.2 e.1))
  have hcensus : runWatched m source none (.ok paths) = .ok (.ok census, []) := by
    simp only [runWatched, tallyFiles_eq hv, bind, Except.bind, hnone]
    rfl
  cases hcensus.symm.trans hrun
  obtain ⟨_, ⟨⟩, rfl⟩ := hok census rfl
  refine ⟨_, hcensus, rfl, ?_, ?_, ?_⟩
  · rw [foldl_merge_of_add Tally.files_merge, List.map_map]
    simp [Function.comp_def, files_fileTally, Tally.zero]
  · show Tally.count _ .blank = _
    rw [foldl_merge_of_add (f := fun t => t.count .blank) fun s t => Tally.count_merge s t .blank, List.map_map,
      Tally.count_zero, Nat.zero_add]
    simp only [Function.comp_def, count_fileTally, Reading.countP_blank_file]
  · rw [foldl_merge_of_add Tally.total_merge, List.map_map]
    simp only [Function.comp_def, total_fileTally, length_file]
    exact Nat.zero_add _

/-- **Markers move lines between comment and code only**: in every state that calls lead to, the verdict on a
line is blank exactly if it consists of spaces and tabs. So two runs over the same files with different markers
count the same files, as many blank lines, and as many lines of comment or code. -/
theorem run_blank (line line' : List Text) (block block' : List BlockPair) (continuation continuation' : List Text)
    (source : Text → Contents) (paths : List Text) :
    let m := Markers.ofLists line block continuation
    let m' := Markers.ofLists line' block' continuation'
    (∀ t : Tracker, t.Reachable m → ∀ raw, ∃ v t', t.feed m raw = .ok (v, t') ∧
      (v = .whitespace ↔ Text.isBlank raw = true)) ∧
    ∃ census census', run m source none (.ok paths) = .ok (.ok census, []) ∧
      run m' source none (.ok paths) = .ok (.ok census', []) ∧
      census.skipped = census'.skipped ∧ census.tally.files = census'.tally.files ∧
      census.tally.blank = census'.tally.blank ∧
      census.tally.comment + census.tally.code = census'.tally.comment + census'.tally.code ∧
      census.tally.files = (countedFiles source none paths).length ∧
      census.tally.blank =
        ((countedFiles source none paths).map fun e => (source e.1).lines.countP Text.isBlank).sum := by
  intro m m'
  have hm : m.Progressing := (Markers.solid_ofLists line block continuation).progressing
  have hm' : m'.Progressing := (Markers.solid_ofLists line' block' continuation').progressing
  obtain ⟨census, hrun, hcounts⟩ := exists_countsBlank hm source paths
  obtain ⟨census', hrun', hcounts'⟩ := exists_countsBlank hm' source paths
  have hblank : census.tally.blank = census'.tally.blank := hcounts.blank.trans hcounts'.blank.symm
  have htotal : census.tally.total = census'.tally.total := hcounts.total.trans hcounts'.total.symm
  refine ⟨fun t ht raw => ht.feed_whitespace hm raw, census, census', hrun, hrun',
    hcounts.skipped.trans hcounts'.skipped.symm, hcounts.files.trans hcounts'.files.symm, hblank, ?_, hcounts.files,
    hcounts.blank⟩
  unfold Tally.total at htotal
  omega

/-- A blank line in an open block, which is no block for the other markers. -/
theorem run_blank_open_block :
    let m := Markers.ofLists [] [⟨"/*".toList, "*/".toList⟩] []
    let m' := Markers.ofLists ["#".toList] [] []
    let source : Text → Contents := fun _ => ⟨["/* a".toList, " \t".toList, "b */".toList], none⟩
    Tracker.Reachable m ⟨.inBlock 0, ⟨[.at 0]⟩⟩ ∧
      (∃ t', Tracker.feed m ⟨.inBlock 0, ⟨[.at 0]⟩⟩ " \t".toList = .ok (.whitespace, t')) ∧
      ∃ census census', run m source none (.ok [['f']]) = .ok (.ok census, []) ∧
        run m' source none (.ok [['f']]) = .ok (.ok census', []) ∧
        census.tally = ⟨1, 2, 0, 1⟩ ∧ census'.tally = ⟨1, 0, 2, 1⟩ ∧
        census.tally.blank = census'.tally.blank := by
  intro m m' source
  have hreachable : Tracker.Reachable m ⟨.inBlock 0, ⟨[.at 0]⟩⟩ :=
    .feed .start (show Tracker.start.feed m "/* a".toList = .ok (.block, _) by decide)
  obtain ⟨hfeed, census, census', hrun, hrun', -, -, hblank, -⟩ :=
    run_blank [] ["#".toList] [⟨"/*".toList, "*/".toList⟩] [] [] [] source [['f']]
  obtain ⟨v, t', hv, hwhitespace⟩ := hfeed _ hreachable " \t".toList
  have htally : (⟨1, 2, 0, 1⟩ : Tally) = census.tally := by
    have hcomputed : run m source none (.ok [['f']]) = .ok (.ok ⟨⟨1, 2, 0, 1⟩, 1, []⟩, []) := rfl
    cases hcomputed.symm.trans hrun
    rfl
  have htally' : (⟨1, 0, 2, 1⟩ : Tally) = census'.tally := by
    have hcomputed : run m' source none (.ok [['f']]) = .ok (.ok ⟨⟨1, 0, 2, 1⟩, 1, []⟩, []) := rfl
    cases hcomputed.symm.trans hrun'
    rfl
  have hblankLine : v = .whitespace := hwhitespace.2 rfl
  exact ⟨hreachable, ⟨t', hblankLine ▸ hv⟩, census, census', hrun, hrun', htally.symm, htally'.symm, hblank⟩

end Census

end LineCensus
