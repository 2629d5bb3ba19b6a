import LineCensus.Proofs.JsonLayout

/-!
# Values on one line

The text of a value on one line reads as the tree that the value stands for (`Value.written_compact`). As on several
lines, numbers are the reason why the text behind a value matters: no digit, point or exponent may follow, and within a
value only commas, brackets and braces do.
-/

namespace LineCensus.Json

theorem endsNumber_nil : EndsNumber [] := nofun

theorem endsNumber_bracket (t : Text) : EndsNumber (']' :: t) := by
  rintro c ⟨⟩
  decide

theorem endsNumber_brace (t : Text) : EndsNumber ('\x7d' :: t) := by
  rintro c ⟨⟩
  decide

namespace Value

/-- What comes behind an item on its line: a comma and the other items, if there are any. -/
def compactItemsBehind : List Value → Text
  | [] => []
  | v :: rest => ',' :: compactItems (v :: rest)

/-- What comes behind a member on its line: a comma and the other members, if there are any. -/
def compactMembersBehind : List (String × Value) → Text
  | [] => []
  | m :: rest => ',' :: compactMembers (m :: rest)

theorem compactItems_cons (v : Value) (rest : List Value) :
    compactItems (v :: rest) = v.compact ++ compactItemsBehind rest := by
  cases rest <;> simp [compactItems, compactItemsBehind]

theorem compactMembers_cons (name : String) (v : Value) (rest : List (String × Value)) :
    compactMembers ((name, v) :: rest) = quote name.toList ++ ':' :: (v.compact ++ compactMembersBehind rest) := by
  cases rest <;> simp [compactMembers, compactMembersBehind]

theorem endsNumber_compactItemsBehind (items : List Value) {t : Text} (ht : EndsNumber t) :
    EndsNumber (compactItemsBehind items ++ t) := by
  cases items with
  | nil => exact ht
  | cons => exact endsNumber_comma _

theorem endsNumber_compactMembersBehind (members : List (String × Value)) {t : Text} (ht : EndsNumber t) :
    EndsNumber (compactMembersBehind members ++ t) := by
  cases members with
  | nil => exact ht
  | cons => exact endsNumber_comma _

open Writes (punct quoted)

mutual

/-- In front of every text with which no number goes on, the tokens of its tree are written in the text of a value. -/
theorem written_compact_append : (v : Value) → ∀ (t : Text) (bs : List Token.Body), EndsNumber t → Written t bs →
    Written (v.compact ++ t) (v.tree.bodies ++ bs)
  | null => fun _ _ _ h => .word (w := "null".toList) (by simp [words]) h
  | bool b => fun t bs _ h => Writes.bool b t bs h
  | natural n => fun _ _ ends h => .natural (spelledNumber_ofNat n) rfl ends h
  | decimal x => fun _ _ ends h => .natural x.spelledNumber_numeral.1 x.spelledNumber_numeral.2 ends h
  | string s => fun _ _ _ h => quoted s h
  | list [] => fun _ _ _ h => punct (punct h)
  | list (v :: rest) => by
    intro t bs ends h
    have hrest := written_compactItemsBehind rest _ _ (endsNumber_bracket t) (punct h)
    have hfirst := written_compact_append v _ _ (endsNumber_compactItemsBehind rest (endsNumber_bracket t)) hrest
    have hlist := punct (c := '[') hfirst
    rw [compact, compactItems_cons, tree, trees, Tree.bodies]
    simpa only [List.cons_append, List.append_assoc, List.nil_append] using hlist
  | object [] => fun _ _ _ h => punct (punct h)
  | object ((name, v) :: rest) => by
    intro t bs ends h
    have hrest := written_compactMembersBehind rest _ _ (endsNumber_brace t) (punct h)
    have hfirst := written_compact_append v _ _ (endsNumber_compactMembersBehind rest (endsNumber_brace t)) hrest
    have hobject := punct (c := '\x7b') (quoted name.toList (punct (c := ':') hfirst))
    rw [compact, compactMembers_cons, tree, fields, Tree.bodies]
    simpa only [List.cons_append, List.append_assoc, List.nil_append] using hobject

/-- Behind an item, the other items are written up to the end of their list. -/
theorem written_compactItemsBehind : (items : List Value) → ∀ (t : Text) (bs : List Token.Body),
    EndsNumber t → Written t (.punct ']' :: bs) →
      Written (compactItemsBehind items ++ t) (Tree.moreItems (trees items) ++ bs)
  | [] => fun _ _ _ h => h
  | v :: rest => by
    intro t bs ends h
    have hrest := written_compactItemsBehind rest _ _ ends h
    have hitem := written_compact_append v _ _ (endsNumber_compactItemsBehind rest ends) hrest
    have hmore := punct (c := ',') hitem
    rw [compactItemsBehind, compactItems_cons, trees, Tree.moreItems]
    simpa only [List.cons_append, List.append_assoc] using hmore

/-- Behind a member, the other members are written up to the end of their object. -/
theorem written_compactMembersBehind : (members : List (String × Value)) → ∀ (t : Text) (bs : List Token.Body),
    EndsNumber t → Written t (.punct '\x7d' :: bs) →
      Written (compactMembersBehind members ++ t) (Tree.moreMembers (fields members) ++ bs)
  | [] => fun _ _ _ h => h
  | (name, v) :: rest => by
    intro t bs ends h
    have hrest := written_compactMembersBehind rest _ _ ends h
    have hvalue := written_compact_append v _ _ (endsNumber_compactMembersBehind rest ends) hrest
    have hmore := punct (c := ',') (quoted name.toList (punct (c := ':') hvalue))
    rw [compactMembersBehind, compactMembers_cons, fields, Tree.moreMembers]
    simpa only [List.cons_append, List.append_assoc] using hmore

end

/-- The text of a value on one line holds the tokens of its tree. -/
theorem written_compact (v : Value) : Written v.compact v.tree.bodies := by
  have hwritten := written_compact_append v [] [] endsNumber_nil .nil
  rwa [List.append_nil, List.append_nil] at hwritten

end Value

end LineCensus.Json
