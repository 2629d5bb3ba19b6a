import LineCensus.Tracker.Calls
import LineCensus.Proofs.ByteSearch
import LineCensus.Proofs.LineReading

/-!
# Lines are cut between their characters

Offsets into a line count bytes, and a line may be cut only where a character begins or the line ends
(`Utf8.IsBoundary`). `Progress.Safe` says of one step that every place from which it reads is one, and
every pair it looks up is configured; it holds on the way through every line (`safe_of_resumes`). So no
sequence of calls gets a tracker stuck.
-/

namespace LineCensus

namespace Cursor.On

variable {line : Text} {c : Cursor}

theorem isBoundary (h : c.On line) : Utf8.IsBoundary (Utf8.encode line) c.offset := by
  obtain ⟨s, hs, ho⟩ := h
  exact Utf8.isBoundary_encode_iff.2 ⟨s, c.rest, hs, ho.symm⟩

/-- Behind a front of what is left there is a boundary again. -/
theorem isBoundary_add (h : c.On line) {s u : Text} (hs : c.rest = s ++ u) :
    Utf8.IsBoundary (Utf8.encode line) (c.offset + Text.byteSize s) :=
  isBoundary (Reaches.on ⟨s, hs, rfl⟩ h : On line ⟨c.offset + Text.byteSize s, u⟩)

/-- The bytes from the cursor on are those of the text from there on. -/
theorem drop_encode (h : c.On line) : (Utf8.encode line).drop c.offset = Utf8.encode c.rest := by
  obtain ⟨s, hs, ho⟩ := h
  rw [hs, ho, Utf8.encode_append, ← Utf8.length_encode, List.drop_left]

end Cursor.On

namespace Progress

variable {m : Markers} {p : Progress} {line : Text}

/-- A step at this place of a line looks up configured pairs only and reads the bytes of the line from
boundaries only: from the cursor on, and from behind the marker that it finds. -/
structure Safe (m : Markers) (line : Text) (p : Progress) : Prop where
  cursor : Utf8.IsBoundary (Utf8.encode line) p.cursor.offset ∧
    (Utf8.encode line).drop p.cursor.offset = Utf8.encode p.cursor.rest
  closing : ∀ pair, p.carry = .inBlock pair → ∃ b, m.block[pair]? = some b ∧
    ∀ k, Utf8.find? (Utf8.encode b.closing) ((Utf8.encode line).drop p.cursor.offset) = some k →
      Utf8.IsBoundary (Utf8.encode line) (p.cursor.offset + k + (Utf8.encode b.closing).length)
  opening : ∀ k pair, (p.cache.earliest m p.cursor).1 = some (k, pair) → ∃ b, m.block[pair]? = some b ∧
    Utf8.IsBoundary (Utf8.encode line) k ∧ Utf8.IsBoundary (Utf8.encode line) (k + (Utf8.encode b.opening).length)
  moves : ∃ move, step m p = .ok move

theorem Ready.safe (h : p.Ready m) (hon : p.cursor.On line) : Safe m line p := by
  refine ⟨⟨hon.isBoundary, hon.drop_encode⟩, fun pair inside => ?_, fun k pair hk => ?_, ?_⟩
  · refine ⟨_, List.getElem?_eq_getElem (h.configured pair inside), fun k hk => ?_⟩
    rw [hon.drop_encode, Utf8.find?_encode] at hk
    obtain ⟨⟨k', u⟩, ho, rfl⟩ := Option.map_eq_some_iff.1 hk
    obtain ⟨s, hs, rfl, ⟨w, rfl⟩, -⟩ := Text.occurrence?_spec ho
    rw [← List.append_assoc] at hs
    have hbehind := hon.isBoundary_add hs
    rwa [Text.byteSize_append, ← Utf8.length_encode (BlockPair.closing _), ← Nat.add_assoc,
      ← Nat.zero_add (Text.byteSize s)] at hbehind
  · obtain ⟨cache, hearliest, -⟩ := StartCache.earliest_eq h.knows
    rw [hearliest] at hk
    obtain ⟨s, u, b, hs, rfl, hb, ⟨w, rfl⟩, -⟩ := Markers.firstOpening?_spec hk
    refine ⟨b, hb, hon.isBoundary_add hs, ?_⟩
    rw [← List.append_assoc] at hs
    have hbehind := hon.isBoundary_add hs
    rwa [Text.byteSize_append, ← Utf8.length_encode b.opening, ← Nat.add_assoc] at hbehind
  · obtain ⟨move, hs, -⟩ := step_handles h
    exact ⟨move, hs⟩

end Progress

namespace Tracker

variable {m : Markers} {t t' : Tracker}

/-- Every step on the way through a line is safe. -/
theorem safe_of_resumes (ht : t.Configured m) {raw : Text} (hraw : Text.isBlank raw = false) {n : Nat} {p : Progress}
    (h : Progress.Resumes m n (t.enter m (Text.trimIndent raw)) p) : p.Safe m (Text.trimIndent raw) := by
  have hstart := ready_enter ht (Text.trimIndent_trimIndent raw) (Text.trimIndent_ne_nil hraw)
  exact (h.ready hstart).safe ((h.reaches hstart).on (Cursor.on_start _))

theorem configured_call (ht : t.Configured m) {c : Call} {a : Answer} (hc : t.call m c = .ok (a, t')) :
    t'.Configured m := by
  cases c with
  | feed raw =>
    simp only [call] at hc
    split at hc
    · cases hc
    · cases hc
      exact configured_feed ht ‹_›
  | reset =>
    cases hc
    rintro pair ⟨⟩

theorem exists_call (hm : m.Progressing) (ht : t.Configured m) (c : Call) : ∃ a t', t.call m c = .ok (a, t') := by
  cases c with
  | feed raw =>
    obtain ⟨cache, hf⟩ := feed_eq_line hm ht raw
    exact ⟨_, _, call_feed hf⟩
  | reset => exact ⟨_, _, rfl⟩

/-- Calls in any order are all answered. -/
theorem exists_callAll (hm : m.Progressing) (ht : t.Configured m) (calls : List Call) :
    ∃ as t', t.callAll m calls = .ok (as, t') ∧ t'.Configured m := by
  induction calls generalizing t with
  | nil => exact ⟨[], t, rfl, ht⟩
  | cons c calls ih =>
    obtain ⟨a, t₁, hcall⟩ := exists_call hm ht c
    obtain ⟨as, t₂, hrest, ht₂⟩ := ih (configured_call ht hcall)
    exact ⟨a :: as, t₂, by simp only [callAll, hcall, hrest], ht₂⟩

theorem configured_start (m : Markers) : start.Configured m := nofun

/-- **No call gets stuck**: whatever calls were made of a new tracker, all of them are answered, the pair of
an open block is a configured one, every further line is answered, and every step on the way through it
cuts the line at boundaries only and looks up configured pairs only. -/
theorem callAll_safe {m : Markers} (hm : m.Progressing) (calls : List Call) :
    ∃ answers t, start.callAll m calls = .ok (answers, t) ∧
      (∀ pair, t.carry = .inBlock pair → pair < m.block.length) ∧
      ∀ raw, (∃ v t', t.feed m raw = .ok (v, t')) ∧
        (Text.isBlank raw = false → ∀ n p, Progress.Resumes m n (t.enter m (Text.trimIndent raw)) p →
          p.Safe m (Text.trimIndent raw)) := by
  obtain ⟨answers, t, hcalls, ht⟩ := exists_callAll hm (configured_start m) calls
  refine ⟨answers, t, hcalls, ht, fun raw => ⟨?_, fun hraw n p h => safe_of_resumes ht hraw h⟩⟩
  obtain ⟨cache, hfeed⟩ := feed_eq_line hm ht raw
  exact ⟨_, _, hfeed⟩

/-- Characters of several bytes open and close blocks, and one pair closes with nothing. -/
def quotes : Markers := ⟨["§".toList], [⟨"«".toList, "»".toList⟩, ⟨"…".toList, []⟩], []⟩

/-- Behind a closing text of two bytes, five bytes into the line. -/
theorem callAll_safe_quotes : ∃ answers t, quotes.Progressing ∧
    start.callAll quotes [.feed "x…é".toList, .reset, .feed "é « ü".toList] = .ok (answers, t) ∧
    t.carry = .inBlock 0 ∧ ∃ p, Progress.Resumes quotes 1 (t.enter quotes "é »ß«".toList) p ∧
      p.cursor.offset = 5 ∧ p.Safe quotes "é »ß«".toList := by
  have hm : quotes.Progressing := by decide
  obtain ⟨answers, t, hcalls, -, hfurther⟩ := callAll_safe hm [.feed "x…é".toList, .reset, .feed "é « ü".toList]
  have hrun : start.callAll quotes [.feed "x…é".toList, .reset, .feed "é « ü".toList] = .ok
      ([⟨some .code, .code, false, none⟩, ⟨none, .code, false, none⟩, ⟨some .code, .block, true, some "»".toList⟩],
        ⟨.inBlock 0, ⟨[.at 3, .absent]⟩⟩) := by decide
  cases hcalls.symm.trans hrun
  have hresumes : Progress.Resumes quotes 1 (enter quotes ⟨.inBlock 0, ⟨[.at 3, .absent]⟩⟩ "é »ß«".toList)
      ⟨.idle .comment, .fresh quotes, ⟨5, "ß«".toList⟩, false⟩ := .one (by decide)
  exact ⟨_, _, hm, hcalls, rfl, _, hresumes, rfl, (hfurther "é »ß«".toList).2 (by decide) 1 _ hresumes⟩

end Tracker

end LineCensus
