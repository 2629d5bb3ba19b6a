import Mathlib.Data.List.Forall2
import LineCensus.Json.Decode
import LineCensus.Proofs.JsonTokens

/-!
# The tree that tokens spell

A `Tree` is what a JSON text stands for, without the places where it stands. `Tree.bodies` are its tokens,
and `Node.tree?` is the tree of a value that was read to its end. Reading the tokens of a tree gives a value
of that tree (`Tree.reads`), wherever they stand, so every text in which they are written reads as the
tree (`exists_ofText`).
-/

namespace LineCensus.Json

/-- What a JSON text stands for. -/
inductive Tree where
  | null
  | bool (b : Bool)
  | number (n : Numeral)
  | string (t : Text)
  | list (items : List Tree)
  | object (members : List (Text × Tree))

namespace Tree

mutual

/-- The tokens of a tree. -/
def bodies : Tree → List Token.Body
  | null => [.null]
  | bool b => [.bool b]
  | number n => [.number n]
  | string t => [.string (.ok t)]
  | list [] => [.punct '[', .punct ']']
  | list (v :: rest) => .punct '[' :: (v.bodies ++ moreItems rest)
  | object [] => [.punct '\x7b', .punct '\x7d']
  | object ((name, v) :: rest) =>
    .punct '\x7b' :: .string (.ok name) :: .punct ':' :: (v.bodies ++ moreMembers rest)

/-- The tokens behind an item of a list, up to its end. -/
def moreItems : List Tree → List Token.Body
  | [] => [.punct ']']
  | v :: rest => .punct ',' :: (v.bodies ++ moreItems rest)

/-- The tokens behind a member of an object, up to its end. -/
def moreMembers : List (Text × Tree) → List Token.Body
  | [] => [.punct '\x7d']
  | (name, v) :: rest => .punct ',' :: .string (.ok name) :: .punct ':' :: (v.bodies ++ moreMembers rest)

end

end Tree

mutual

/-- The tree of a value, if it was read to its end. -/
def Node.tree? : Node → Option Tree
  | .null _ => some .null
  | .bool b _ => some (.bool b)
  | .number n _ _ => some (.number n)
  | .string (.ok t) _ _ => some (.string t)
  | .string (.error _) _ _ => none
  | .list _ items (.closed _) => (treesOf? items).map .list
  | .list _ _ (.broken _) => none
  | .object _ members (.closed _) => (membersOf? members).map .object
  | .object _ _ (.broken _) => none
  | .broken _ _ => none

/-- The trees of values. -/
def treesOf? : List Node → Option (List Tree)
  | [] => some []
  | node :: rest => do return (← node.tree?) :: (← treesOf? rest)

/-- The names of members, with the trees of their values. -/
def membersOf? : List (Key × Node) → Option (List (Text × Tree))
  | [] => some []
  | (key, node) :: rest =>
    match key.name with
    | .ok name => do return (name, ← node.tree?) :: (← membersOf? rest)
    | .error _ => none

end

/-! ### One token -/

/-- Tokens are one token and others, if their bodies are. -/
theorem exists_token {toks : List Token} {b : Token.Body} {bs : List Token.Body} (h : toks.map Token.body = b :: bs) :
    ∃ start stop rest, toks = ⟨start, stop, b⟩ :: rest ∧ rest.map Token.body = bs := by
  obtain ⟨⟨start, stop, body⟩, rest, rfl, rfl, hrest⟩ := List.map_eq_cons_iff.1 h
  exact ⟨start, stop, rest, rfl, hrest⟩

/-- Where an item of a list may stand, it is read unless the list ends there. -/
theorem read_item {due : Due} {start : Nat} {items : List Node}
    (hdue : (due = .firstItem start ∧ items = []) ∨ due = .nextItem start items) {tok : Token}
    (hend : tok.body ≠ .punct ']') (heof : tok.body ≠ .eof) (frames : List Frame) (rest : List Token) :
    Document.read frames due (tok :: rest) = Document.read (.list start items :: frames) .value (tok :: rest) := by
  have hstep : due.step frames tok = Due.value.step (.list start items :: frames) tok := by
    rcases hdue with ⟨rfl, rfl⟩ | rfl <;>
    · rw [Due.step, Due.step]
      split
      · exact absurd ‹_› hend
      · exact absurd ‹_› heof
      · rfl
  rw [Document.read, Document.read, hstep]

/-! ### All tokens of a tree -/

namespace Tree

/-- Reading the tokens of a tree, in front of any others, comes to a value of that tree. -/
def Reads (v : Tree) : Prop :=
  ∀ toks bs, toks.map Token.body = v.bodies ++ bs → ∃ node rest, node.tree? = some v ∧
    rest.map Token.body = bs ∧
    ∀ frames, Document.read frames .value toks = Document.read frames (.separator node) rest

/-- The first token of a tree ends neither a list nor the text. -/
theorem exists_first_token (v : Tree) {toks : List Token} {bs : List Token.Body}
    (h : toks.map Token.body = v.bodies ++ bs) :
    ∃ tok rest, toks = tok :: rest ∧ tok.body ≠ .punct ']' ∧ tok.body ≠ .eof := by
  have hfirst : ∃ b more, v.bodies = b :: more ∧ b ≠ .punct ']' ∧ b ≠ .eof := by
    cases v with
    | null => exact ⟨_, _, rfl, nofun, nofun⟩
    | bool b => exact ⟨_, _, rfl, nofun, nofun⟩
    | number n => exact ⟨_, _, rfl, nofun, nofun⟩
    | string t => exact ⟨_, _, rfl, nofun, nofun⟩
    | list items => cases items <;> exact ⟨_, _, rfl, by simp, nofun⟩
    | object members => cases members <;> exact ⟨_, _, rfl, by simp, nofun⟩
  obtain ⟨b, more, hv, hend, heof⟩ := hfirst
  rw [hv, List.cons_append] at h
  obtain ⟨start, stop, rest, rfl, -⟩ := exists_token h
  exact ⟨_, rest, rfl, hend, heof⟩

mutual

/-- Every tree is read from its tokens. -/
theorem reads : (v : Tree) → v.Reads
  | .null => by
    intro toks bs h
    obtain ⟨start, stop, rest, rfl, hrest⟩ := exists_token h
    exact ⟨.null stop, rest, rfl, hrest, fun _ => rfl⟩
  | .bool b => by
    intro toks bs h
    obtain ⟨start, stop, rest, rfl, hrest⟩ := exists_token h
    exact ⟨.bool b stop, rest, rfl, hrest, fun _ => rfl⟩
  | .number n => by
    intro toks bs h
    obtain ⟨start, stop, rest, rfl, hrest⟩ := exists_token h
    exact ⟨.number n start stop, rest, rfl, hrest, fun _ => rfl⟩
  | .string t => by
    intro toks bs h
    obtain ⟨start, stop, rest, rfl, hrest⟩ := exists_token h
    exact ⟨.string (.ok t) start stop, rest, rfl, hrest, fun _ => rfl⟩
  | .list [] => by
    intro toks bs h
    obtain ⟨start, _, rest, rfl, h₁⟩ := exists_token h
    obtain ⟨_, stop, rest, rfl, hrest⟩ := exists_token h₁
    exact ⟨.list start [] (.closed stop), rest, rfl, hrest, fun _ => rfl⟩
  | .list (v :: more) => by
    intro toks bs h
    rw [bodies, List.cons_append, List.append_assoc] at h
    obtain ⟨start, _, toks, rfl, h₁⟩ := exists_token h
    obtain ⟨tok, toks, rfl, hend, heof⟩ := v.exists_first_token h₁
    obtain ⟨node, rest, hnode, hrest, hread⟩ := reads v _ _ h₁
    obtain ⟨nodes, stop, rest, hnodes, hrest, hmore⟩ := reads_moreItems more _ _ hrest
    refine ⟨.list start (node :: nodes) (.closed stop), rest, ?_, hrest, fun frames => ?_⟩
    · simp [Node.tree?, treesOf?, hnode, hnodes]
    · have hfirst : Document.read frames (.firstItem start) (tok :: toks) =
          Document.read (.list start [] :: frames) .value (tok :: toks) :=
        read_item (.inl ⟨rfl, rfl⟩) hend heof frames toks
      exact hfirst.trans ((hread _).trans (hmore frames start [] node))
  | .object [] => by
    intro toks bs h
    obtain ⟨start, _, rest, rfl, h₁⟩ := exists_token h
    obtain ⟨_, stop, rest, rfl, hrest⟩ := exists_token h₁
    exact ⟨.object start [] (.closed stop), rest, rfl, hrest, fun _ => rfl⟩
  | .object ((name, v) :: more) => by
    intro toks bs h
    rw [bodies, List.cons_append, List.cons_append, List.cons_append, List.append_assoc] at h
    obtain ⟨start, _, toks, rfl, h₁⟩ := exists_token h
    obtain ⟨_, _, toks, rfl, h₂⟩ := exists_token h₁
    obtain ⟨behind, _, toks, rfl, h₃⟩ := exists_token h₂
    obtain ⟨node, rest, hnode, hrest, hread⟩ := reads v _ _ h₃
    obtain ⟨nodes, stop, rest, hnodes, hrest, hmore⟩ := reads_moreMembers more _ _ hrest
    refine ⟨.object start ((⟨.ok name, behind⟩, node) :: nodes) (.closed stop), rest, ?_, hrest, fun frames => ?_⟩
    · simp [Node.tree?, membersOf?, hnode, hnodes]
    · exact (hread _).trans (hmore frames start [] ⟨.ok name, behind⟩ node)

/-- Behind an item, the other items are read up to the end of their list. -/
theorem reads_moreItems : (more : List Tree) → ∀ toks bs, toks.map Token.body = moreItems more ++ bs →
    ∃ nodes stop rest, treesOf? nodes = some more ∧ rest.map Token.body = bs ∧
      ∀ frames start items node, Document.read (.list start items :: frames) (.separator node) toks =
        Document.read frames (.separator (.list start ((node :: items).reverse ++ nodes) (.closed stop))) rest
  | [] => by
    intro toks bs h
    obtain ⟨_, stop, rest, rfl, hrest⟩ := exists_token h
    refine ⟨[], stop, rest, rfl, hrest, fun frames start items node => ?_⟩
    rw [List.append_nil]
    rfl
  | v :: more => by
    intro toks bs h
    rw [moreItems, List.cons_append, List.append_assoc] at h
    obtain ⟨_, _, toks, rfl, h₁⟩ := exists_token h
    obtain ⟨tok, toks, rfl, hend, heof⟩ := v.exists_first_token h₁
    obtain ⟨next, rest, htree, hrest, hread⟩ := reads v _ _ h₁
    obtain ⟨nodes, stop, rest, hnodes, hrest, hmore⟩ := reads_moreItems more _ _ hrest
    refine ⟨next :: nodes, stop, rest, ?_, hrest, fun frames start items node => ?_⟩
    · simp [treesOf?, htree, hnodes]
    · have hnext : Document.read frames (.nextItem start (node :: items)) (tok :: toks) =
          Document.read (.list start (node :: items) :: frames) .value (tok :: toks) :=
        read_item (.inr rfl) hend heof frames toks
      have hrec := hmore frames start (node :: items) next
      rw [List.reverse_cons, List.append_assoc, List.singleton_append] at hrec
      exact hnext.trans ((hread _).trans hrec)

/-- Behind a member, the other members are read up to the end of their object. -/
theorem reads_moreMembers : (more : List (Text × Tree)) → ∀ toks bs, toks.map Token.body = moreMembers more ++ bs →
    ∃ nodes stop rest, membersOf? nodes = some more ∧ rest.map Token.body = bs ∧
      ∀ frames start members key node,
        Document.read (.object start members key :: frames) (.separator node) toks =
          Document.read frames
            (.separator (.object start (((key, node) :: members).reverse ++ nodes) (.closed stop))) rest
  | [] => by
    intro toks bs h
    obtain ⟨_, stop, rest, rfl, hrest⟩ := exists_token h
    refine ⟨[], stop, rest, rfl, hrest, fun frames start members key node => ?_⟩
    rw [List.append_nil]
    rfl
  | (name, v) :: more => by
    intro toks bs h
    rw [moreMembers, List.cons_append, List.cons_append, List.cons_append, List.append_assoc] at h
    obtain ⟨_, _, toks, rfl, h₁⟩ := exists_token h
    obtain ⟨_, _, toks, rfl, h₂⟩ := exists_token h₁
    obtain ⟨behind, _, toks, rfl, h₃⟩ := exists_token h₂
    obtain ⟨next, rest, hnext, hrest, hread⟩ := reads v _ _ h₃
    obtain ⟨nodes, stop, rest, hnodes, hrest, hmore⟩ := reads_moreMembers more _ _ hrest
    refine ⟨(⟨.ok name, behind⟩, next) :: nodes, stop, rest, ?_, hrest, fun frames start members key node => ?_⟩
    · simp [membersOf?, hnext, hnodes]
    · have hrec := hmore frames start ((key, node) :: members) ⟨.ok name, behind⟩ next
      rw [List.reverse_cons, List.append_assoc, List.singleton_append] at hrec
      exact (hread _).trans hrec

end

end Tree

/-- A text in which the tokens of a tree are written reads as that tree, and nothing is wrong behind it. -/
theorem exists_ofText {v : Tree} {t : Text} (h : Written t v.bodies) :
    ∃ node, Document.ofText t = ⟨node, none⟩ ∧ node.tree? = some v := by
  obtain ⟨node, rest, hnode, hrest, hread⟩ := v.reads _ _ (h.map_body_tokensFrom 0)
  obtain ⟨start, stop, rest, rfl, -⟩ := exists_token hrest
  exact ⟨node, hread [], hnode⟩

/-! ### Written values -/

/-- On one line, a value is written as a tree. -/
def Value.Writes (v : Value) (tree : Tree) : Prop :=
  ∀ t bs, Written t bs → Written (v.compact ++ t) (tree.bodies ++ bs)

namespace Value.Writes

variable {t : Text} {bs : List Token.Body}

theorem punct {c : Char} (h : Written t bs) (hc : c ∈ ['[', ']', '\x7b', '\x7d', ',', ':'] := by decide) :
    Written (c :: t) (.punct c :: bs) :=
  .punct hc h

theorem quoted (s : Text) (h : Written t bs) : Written (quote s ++ t) (.string (.ok s) :: bs) := by
  have hstring := Written.string (spelledText_flatMap_escape s) h
  simpa [quote] using hstring

theorem string (s : Text) : (Value.string s).Writes (.string s) := fun _ _ h => quoted s h

theorem bool (b : Bool) : (Value.bool b).Writes (.bool b) := by
  intro t bs h
  cases b with
  | true => exact .word (w := "true".toList) (by simp [words]) h
  | false => exact .word (w := "false".toList) (by simp [words]) h

theorem list {vs : List Value} {trees : List Tree} (h : List.Forall₂ Writes vs trees) :
    (Value.list vs).Writes (.list trees) := by
  intro t bs ht
  have hend : Written (']' :: t) (.punct ']' :: bs) := punct ht
  cases h with
  | nil => exact punct hend
  | @cons v tree vs trees first rest =>
    have hitems : Written (compactItems (v :: vs) ++ ']' :: t) (tree.bodies ++ (Tree.moreItems trees ++ bs)) := by
      induction rest generalizing v tree with
      | nil => exact first _ _ hend
      | @cons v' tree' vs trees next _ ih =>
        have hcomma : Written (',' :: (compactItems (v' :: vs) ++ ']' :: t))
            (Tree.moreItems (tree' :: trees) ++ bs) := by
          simpa [Tree.moreItems] using punct (c := ',') (ih next)
        simpa [compactItems] using first _ _ hcomma
    simpa [compact, Tree.bodies] using punct (c := '[') hitems

theorem texts (ts : List Text) : (Value.texts ts).Writes (.list (ts.map .string)) := by
  refine .list ?_
  rw [List.forall₂_map_left_iff, List.forall₂_map_right_iff, List.forall₂_same]
  exact fun t _ => .string t

theorem object {members : List (String × Value)} {fields : List (Text × Tree)}
    (h : List.Forall₂ (fun m f => m.1.toList = f.1 ∧ m.2.Writes f.2) members fields) :
    (Value.object members).Writes (.object fields) := by
  intro t bs ht
  have hend : Written ('\x7d' :: t) (.punct '\x7d' :: bs) := punct ht
  cases h with
  | nil => exact punct hend
  | @cons m f members fields first rest =>
    have hmembers : Written (compactMembers (m :: members) ++ '\x7d' :: t)
        (.string (.ok f.1) :: .punct ':' :: (f.2.bodies ++ (Tree.moreMembers fields ++ bs))) := by
      induction rest generalizing m f with
      | nil =>
        obtain ⟨name, v⟩ := m
        obtain ⟨_, tree⟩ := f
        obtain ⟨rfl, hv⟩ := first
        simpa [compactMembers, Tree.moreMembers] using quoted name.toList (punct (c := ':') (hv _ _ hend))
      | @cons m' f' members fields next _ ih =>
        obtain ⟨name, v⟩ := m
        obtain ⟨_, tree⟩ := f
        obtain ⟨rfl, hv⟩ := first
        have hcomma : Written (',' :: (compactMembers (m' :: members) ++ '\x7d' :: t))
            (Tree.moreMembers (f' :: fields) ++ bs) := by
          simpa [Tree.moreMembers] using punct (c := ',') (ih next)
        simpa [compactMembers] using quoted name.toList (punct (c := ':') (hv _ _ hcomma))
    obtain ⟨name, v⟩ := f
    simpa [compact, Tree.bodies] using punct (c := '\x7b') hmembers

/-- In the text of a value on one line, the tokens of its tree are written. -/
theorem written {v : Value} {tree : Tree} (h : v.Writes tree) : Written v.compact tree.bodies := by
  have hwritten := h [] [] .nil
  rwa [List.append_nil, List.append_nil] at hwritten

end Value.Writes

end LineCensus.Json
