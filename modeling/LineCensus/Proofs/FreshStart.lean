import LineCensus.Proofs.Boundaries
import LineCensus.Proofs.CensusTotals

/-!
# An idle tracker is as good as a new one

What a tracker answers depends on what it carries, not on the openings it still knows from earlier lines,
and of the last line that an idle tracker carries nothing is ever seen (`Tracker.Alike`, `call_alike`). So a
tracker that is idle answers all further calls as a new one (`callAll_alike`), and the counts of a file are
those of its parts if it is cut where its tracker is idle (`file_append`, `file_idle`).
-/

namespace LineCensus

/-- No block is open and no comment is continued. -/
def Carry.IsIdle (carry : Carry) : Prop := ∃ v, carry = .idle v

namespace Tracker

variable {m : Markers} {t t' : Tracker}

/-- The trackers carry the same, or both are idle. -/
def Alike (t t' : Tracker) : Prop := t.carry = t'.carry ∨ t.carry.IsIdle ∧ t'.carry.IsIdle

theorem isIdle_iff : t.carry.IsIdle ↔ t.isInBlock = false ∧ t.carry ≠ .continuing := by
  obtain ⟨carry, cache⟩ := t
  cases carry with
  | idle v => exact iff_of_true ⟨v, rfl⟩ ⟨rfl, nofun⟩
  | continuing => exact iff_of_false (by rintro ⟨_, ⟨⟩⟩) fun h => h.2 rfl
  | inBlock pair => exact iff_of_false (by rintro ⟨_, ⟨⟩⟩) (by rintro ⟨⟨⟩, -⟩)

theorem answer_congr (h : t.carry = t'.carry) (verdict : Option Verdict) :
    answer m verdict t = answer m verdict t' := by
  simp only [answer, current, isInBlock, awaited?, h]

/-- The last line of an idle tracker has no part in how the next one reads. -/
theorem line_alike (hm : m.Progressing) (h : Alike t t') (raw : Text) :
    Reading.line m hm t.carry raw = Reading.line m hm t'.carry raw := by
  obtain he | ⟨⟨v, hv⟩, ⟨w, hw⟩⟩ := h
  · rw [he]
  · rw [hv, hw]
    rfl

theorem call_alike (hm : m.Progressing) (ht : t.Configured m) (ht' : t'.Configured m) (h : Alike t t') (c : Call) :
    ∃ a t₁ t₁', t.call m c = .ok (a, t₁) ∧ t'.call m c = .ok (a, t₁') ∧ t₁.carry = t₁'.carry := by
  cases c with
  | feed raw =>
    obtain ⟨cache, hf⟩ := feed_eq_line hm ht raw
    obtain ⟨cache', hf'⟩ := feed_eq_line hm ht' raw
    rw [line_alike hm h] at hf
    refine ⟨_, ⟨_, cache⟩, ⟨_, cache'⟩, call_feed hf, ?_, rfl⟩
    rw [call_feed hf']
    exact congrArg (fun a => Except.ok (a, _)) (answer_congr rfl _)
  | reset => exact ⟨_, _, _, rfl, rfl, rfl⟩

/-- Trackers that are alike answer all calls alike. -/
theorem callAll_alike (hm : m.Progressing) (ht : t.Configured m) (ht' : t'.Configured m) (h : Alike t t')
    (calls : List Call) : ∃ as t₁ t₁', t.callAll m calls = .ok (as, t₁) ∧ t'.callAll m calls = .ok (as, t₁') := by
  induction calls generalizing t t' with
  | nil => exact ⟨[], t, t', rfl, rfl⟩
  | cons c calls ih =>
    obtain ⟨a, t₁, t₁', hc, hc', hcarry⟩ := call_alike hm ht ht' h c
    obtain ⟨as, t₂, t₂', hrest, hrest'⟩ := ih (configured_call ht hc) (configured_call ht' hc') (.inl hcarry)
    exact ⟨a :: as, t₂, t₂', by simp only [callAll, hc, hrest], by simp only [callAll, hc', hrest']⟩

/-- The state behind a last reset is idle. -/
theorem isIdle_of_reset {calls : List Call} {as : List Answer} (h : t.callAll m calls = .ok (as, t'))
    (hlast : calls.getLast? = some .reset) : t'.carry.IsIdle := by
  induction calls generalizing t as with
  | nil => cases hlast
  | cons c calls ih =>
    simp only [callAll] at h
    split at h
    · cases h
    · rename_i a t₁ hc
      split at h
      · cases h
      · rename_i hrest
        cases h
        cases calls with
        | nil =>
          cases hlast
          cases hc
          cases hrest
          exact ⟨.code, rfl⟩
        | cons d calls => exact ih hrest (by rwa [List.getLast?_cons_cons] at hlast)

/-! ### Files in two parts -/

/-- Lines that are fed one after the other are read as the file they make up. -/
theorem file_append (hm : m.Progressing) (ht : t.Configured m) {xs : List Text} {as : List Answer}
    (h : t.callAll m (xs.map .feed) = .ok (as, t')) (ys : List Text) :
    Reading.file m hm t.carry (xs ++ ys) = Reading.file m hm t.carry xs ++ Reading.file m hm t'.carry ys := by
  induction xs generalizing t as with
  | nil =>
    cases h
    rfl
  | cons x xs ih =>
    obtain ⟨cache, hf⟩ := feed_eq_line hm ht x
    simp only [List.map_cons, callAll, call_feed hf] at h
    split at h
    · cases h
    · rename_i hrest
      cases h
      have hfile := ih (configured_feed ht hf) hrest
      simp only [List.cons_append, Reading.file]
      exact congrArg _ hfile

theorem file_idle (hm : m.Progressing) {carry : Carry} (h : carry.IsIdle) (ys : List Text) :
    Reading.file m hm carry ys = Reading.file m hm (.idle .code) ys := by
  obtain ⟨v, rfl⟩ := h
  cases ys <;> rfl

end Tracker

namespace Census

theorem tallyLines_eq {m : Markers} (hm : m.Progressing) (lines : List Text) :
    tallyLines m lines = .ok (fileTally (Reading.file m hm (.idle .code) lines)) := by
  rw [tallyLines, Markers.classify_eq_file hm]
  rfl

end Census

namespace Tracker

/-- **History does not leak**: whatever calls were made of a new tracker, if the last one was a reset, or if
no block is open and no comment is continued behind them, it answers all further calls as a new tracker.
So the counts of a file are the sums of those of its two parts if it is cut where its tracker is idle. -/
theorem callAll_fresh (line : List Text) (block : List BlockPair) (continuation : List Text) (history : List Call) :
    let m := Markers.ofLists line block continuation
    ∃ answers t, start.callAll m history = .ok (answers, t) ∧
      ((history.getLast? = some .reset ∨ t.isInBlock = false ∧ t.carry ≠ .continuing) →
        (∀ calls, ∃ as t₁ t₂, t.callAll m calls = .ok (as, t₁) ∧ start.callAll m calls = .ok (as, t₂)) ∧
        ∀ xs ys, history = xs.map .feed →
          ∃ whole first second, Census.tallyLines m (xs ++ ys) = .ok whole ∧ Census.tallyLines m xs = .ok first ∧
            Census.tallyLines m ys = .ok second ∧ ∀ b, whole.count b = first.count b + second.count b) := by
  intro m
  have hm : m.Progressing := (Markers.solid_ofLists line block continuation).progressing
  obtain ⟨answers, t, hhistory, ht⟩ := exists_callAll hm (configured_start m) history
  refine ⟨answers, t, hhistory, fun hend => ?_⟩
  have hidle : t.carry.IsIdle := hend.elim (isIdle_of_reset hhistory) isIdle_iff.2
  refine ⟨callAll_alike hm ht (configured_start m) (.inr ⟨hidle, ⟨.code, rfl⟩⟩), ?_⟩
  rintro xs ys rfl
  have hfile := file_append hm (configured_start m) hhistory ys
  rw [file_idle hm hidle] at hfile
  refine ⟨_, _, _, Census.tallyLines_eq hm _, Census.tallyLines_eq hm _, Census.tallyLines_eq hm _, fun b => ?_⟩
  rw [Census.count_fileTally, Census.count_fileTally, Census.count_fileTally, ← List.countP_append]
  exact congrArg _ hfile

/-- Behind a blank line that ends a continued comment; the openings of a longer line are still known. -/
theorem callAll_fresh_after_continuation :
    let m := Markers.ofLists ["//".toList] [⟨"/*".toList, "*/".toList⟩] ["\\".toList]
    let history : List Call := [.feed "x; /* a */ // b \\".toList, .feed "".toList]
    ∃ answers t, start.callAll m history = .ok (answers, t) ∧ t = ⟨.idle .whitespace, ⟨[.at 3]⟩⟩ ∧
      ∃ as t₁ t₂, t.callAll m [.feed "/* y".toList, .reset] = .ok (as, t₁) ∧
        start.callAll m [.feed "/* y".toList, .reset] = .ok (as, t₂) := by
  intro m history
  obtain ⟨answers, t, hhistory, hfresh⟩ := callAll_fresh ["//".toList] [⟨"/*".toList, "*/".toList⟩] ["\\".toList]
    history
  have hrun : start.callAll m history = .ok ([⟨some .code, .continuing, false, none⟩,
      ⟨some .whitespace, .whitespace, false, none⟩], ⟨.idle .whitespace, ⟨[.at 3]⟩⟩) := by decide
  cases hhistory.symm.trans hrun
  exact ⟨_, _, hhistory, rfl, (hfresh (.inr ⟨rfl, nofun⟩)).1 [.feed "/* y".toList, .reset]⟩

end Tracker

end LineCensus
