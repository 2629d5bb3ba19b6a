import LineCensus.Proofs.JsonNumbers
import LineCensus.Proofs.JsonTrees

/-!
# Values on several lines

`Value.tree` is the tree that a value stands for. The text of a value with one item or member a line reads as this
tree (`treeOf?_pretty`), with any white space behind it. The proof follows the writer: wherever it stands and however
deep it is indented, the text of a value holds the tokens of its tree (`Value.laysOut`), provided that no digit, point
or exponent comes behind it, as neither a comma nor a line feed does.
-/

namespace LineCensus.Json

/-- The tree of a text that holds one value and in which nothing is wrong. -/
def treeOf? (t : Text) : Option Tree :=
  match Document.ofText t with
  | ⟨root, none⟩ => root.tree?
  | ⟨_, some _⟩ => none

theorem treeOf?_of_written {v : Tree} {t : Text} (h : Written t v.bodies) : treeOf? t = some v := by
  obtain ⟨node, htext, hnode⟩ := exists_ofText h
  rw [treeOf?, htext]
  exact hnode

/-! ### White space -/

theorem Written.whites {w t : Text} {bs : List Token.Body} (hw : ∀ c ∈ w, isWhite c = true) (h : Written t bs) :
    Written (w ++ t) bs := by
  induction w with
  | nil => exact h
  | cons c w ih => exact .white (hw c (.head _)) (ih fun d hd => hw d (.tail _ hd))

theorem isWhite_of_mem_indent {level : Nat} {c : Char} (h : c ∈ Value.indent level) : isWhite c = true := by
  rcases List.mem_cons.1 h with rfl | h
  · rfl
  · rw [List.eq_of_mem_replicate h]
    rfl

theorem Written.indented {t : Text} {bs : List Token.Body} (h : Written t bs) (level : Nat) :
    Written (Value.indent level ++ t) bs :=
  h.whites fun _ => isWhite_of_mem_indent

theorem endsNumber_comma (t : Text) : EndsNumber (',' :: t) := by
  intro c hc
  cases hc
  decide

theorem endsNumber_indent (level : Nat) (t : Text) : EndsNumber (Value.indent level ++ t) := by
  intro c hc
  cases hc
  decide

theorem endsNumber_of_white {w : Text} (hw : ∀ c ∈ w, isWhite c = true) : EndsNumber w := by
  intro c hc
  have hwhite := hw c (List.mem_of_mem_head? hc)
  simp only [isWhite, Bool.or_eq_true, decide_eq_true_eq] at hwhite
  rcases hwhite with ((rfl | rfl) | rfl) | rfl <;> decide

/-! ### Values -/

namespace Value

mutual

/-- What a value stands for. -/
def tree : Value → Tree
  | null => .null
  | bool b => .bool b
  | natural n => .number (.ofNat n)
  | decimal x => .number x.numeral
  | string t => .string t
  | list items => .list (trees items)
  | object members => .object (fields members)

/-- What items stand for. -/
def trees : List Value → List Tree
  | [] => []
  | v :: rest => v.tree :: trees rest

/-- What members stand for. -/
def fields : List (String × Value) → List (Text × Tree)
  | [] => []
  | (name, v) :: rest => (name.toList, v.tree) :: fields rest

end

/-- What comes behind an item: a comma and the other items, if there are any. -/
def itemsBehind (level : Nat) : List Value → Text
  | [] => []
  | v :: rest => ',' :: prettyItems level (v :: rest)

/-- What comes behind a member: a comma and the other members, if there are any. -/
def membersBehind (level : Nat) : List (String × Value) → Text
  | [] => []
  | m :: rest => ',' :: prettyMembers level (m :: rest)

theorem prettyItems_cons (level : Nat) (v : Value) (rest : List Value) :
    prettyItems level (v :: rest) = indent level ++ (prettyAt level v ++ itemsBehind level rest) := by
  cases rest <;> simp [prettyItems, itemsBehind]

theorem prettyMembers_cons (level : Nat) (name : String) (v : Value) (rest : List (String × Value)) :
    prettyMembers level ((name, v) :: rest) =
      indent level ++ (quote name.toList ++ ':' :: ' ' :: (prettyAt level v ++ membersBehind level rest)) := by
  cases rest <;> simp [prettyMembers, membersBehind]

theorem endsNumber_itemsBehind (level : Nat) (items : List Value) {t : Text} (ht : EndsNumber t) :
    EndsNumber (itemsBehind level items ++ t) := by
  cases items with
  | nil => exact ht
  | cons => exact endsNumber_comma _

theorem endsNumber_membersBehind (level : Nat) (members : List (String × Value)) {t : Text} (ht : EndsNumber t) :
    EndsNumber (membersBehind level members ++ t) := by
  cases members with
  | nil => exact ht
  | cons => exact endsNumber_comma _

/-- At every level and in front of every text with which no number goes on, the tokens of its tree are written in the
text of the value. -/
def LaysOut (v : Value) : Prop :=
  ∀ (level : Nat) (t : Text) (bs : List Token.Body), EndsNumber t → Written t bs →
    Written (v.prettyAt level ++ t) (v.tree.bodies ++ bs)

open Writes (punct quoted)

/-- A name in front of the value of its member. -/
theorem written_name (level : Nat) (name : String) {t : Text} {bs : List Token.Body} (h : Written t bs) :
    Written (indent level ++ (quote name.toList ++ ':' :: ' ' :: t)) (.string (.ok name.toList) :: .punct ':' :: bs) :=
  (quoted name.toList (punct (.white rfl h))).indented level

mutual

/-- Every value is laid out as its tree. -/
theorem laysOut : (v : Value) → v.LaysOut
  | null => fun _ _ _ _ h => .word (w := "null".toList) (by simp [words]) h
  | bool b => fun _ t bs _ h => Writes.bool b t bs h
  | natural n => fun _ _ _ ends h => .natural (spelledNumber_ofNat n) rfl ends h
  | decimal x => fun _ _ _ ends h => .natural x.spelledNumber_numeral.1 x.spelledNumber_numeral.2 ends h
  | string s => fun _ _ _ _ h => quoted s h
  | list [] => fun _ _ _ _ h => punct (punct h)
  | list (v :: rest) => by
    intro level t bs ends h
    have hend : Written (indent level ++ ']' :: t) (.punct ']' :: bs) := (punct h).indented level
    have hrest := written_itemsBehind rest (level + 1) (endsNumber_indent level _) hend
    have hfirst := laysOut v (level + 1) _ _
      (endsNumber_itemsBehind (level + 1) rest (endsNumber_indent level _)) hrest
    have hlist := punct (c := '[') (hfirst.indented (level + 1))
    rw [prettyAt, prettyItems_cons, tree, trees, Tree.bodies]
    simpa only [List.cons_append, List.append_assoc, List.nil_append] using hlist
  | object [] => fun _ _ _ _ h => punct (punct h)
  | object ((name, v) :: rest) => by
    intro level t bs ends h
    have hend : Written (indent level ++ '\x7d' :: t) (.punct '\x7d' :: bs) := (punct h).indented level
    have hrest := written_membersBehind rest (level + 1) (endsNumber_indent level _) hend
    have hfirst := laysOut v (level + 1) _ _
      (endsNumber_membersBehind (level + 1) rest (endsNumber_indent level _)) hrest
    have hobject := punct (c := '\x7b') (written_name (level + 1) name hfirst)
    rw [prettyAt, prettyMembers_cons, tree, fields, Tree.bodies]
    simpa only [List.cons_append, List.append_assoc, List.nil_append] using hobject

/-- Behind an item, the other items are laid out up to the end of their list. -/
theorem written_itemsBehind : (items : List Value) → ∀ (level : Nat) {t : Text} {bs : List Token.Body},
    EndsNumber t → Written t (.punct ']' :: bs) →
      Written (itemsBehind level items ++ t) (Tree.moreItems (trees items) ++ bs)
  | [] => fun _ _ _ _ h => h
  | v :: rest => by
    intro level t bs ends h
    have hrest := written_itemsBehind rest level ends h
    have hitem := laysOut v level _ _ (endsNumber_itemsBehind level rest ends) hrest
    have hmore := punct (c := ',') (hitem.indented level)
    rw [itemsBehind, prettyItems_cons, trees, Tree.moreItems]
    simpa only [List.cons_append, List.append_assoc] using hmore

/-- Behind a member, the other members are laid out up to the end of their object. -/
theorem written_membersBehind : (members : List (String × Value)) → ∀ (level : Nat) {t : Text}
    {bs : List Token.Body}, EndsNumber t → Written t (.punct '\x7d' :: bs) →
      Written (membersBehind level members ++ t) (Tree.moreMembers (fields members) ++ bs)
  | [] => fun _ _ _ _ h => h
  | (name, v) :: rest => by
    intro level t bs ends h
    have hrest := written_membersBehind rest level ends h
    have hvalue := laysOut v level _ _ (endsNumber_membersBehind level rest ends) hrest
    have hmore := punct (c := ',') (written_name level name hvalue)
    rw [membersBehind, prettyMembers_cons, fields, Tree.moreMembers]
    simpa only [List.cons_append, List.append_assoc] using hmore

end

/-- What is written on several lines reads as what it stands for, with any white space behind it. -/
theorem treeOf?_pretty (v : Value) {w : Text} (hw : ∀ c ∈ w, isWhite c = true) :
    treeOf? (v.pretty ++ w) = some v.tree := by
  have hwhite : Written w [] := by
    have hnothing := Written.nil.whites hw
    rwa [List.append_nil] at hnothing
  have hwritten := v.laysOut 0 w [] (endsNumber_of_white hw) hwhite
  rw [List.append_nil] at hwritten
  exact treeOf?_of_written hwritten

/-- The text of an object ends with a brace. -/
theorem getLast?_pretty_object (members : List (String × Value)) :
    (object members).pretty.getLast? = some '\x7d' := by
  cases members with
  | nil => rfl
  | cons m rest => rw [pretty, prettyAt, List.getLast?_concat]

end Value

end LineCensus.Json
