import Mathlib.Tactic.SplitIfs
import LineCensus.FileTree

/-!
# Paths in trees without links

In a tree without links a path says by its components alone where it leads: each of them changes the
location in one way (`FileTree.enter`), and `locate_eq` says that a path that leads anywhere leads to
where its components do. `locate_join` is the step from a directory to its entry, on the side of the
location as on the side of the spelling.
-/

namespace LineCensus

namespace Path

/-- A directory can hold an entry of this name. -/
def isEntryName (name : Text) : Bool :=
  name ≠ [] && '/' ∉ name && name ≠ ['.'] && name ≠ ['.', '.']

variable {name : Text}

theorem isEntryName_iff :
    isEntryName name ↔ name ≠ [] ∧ '/' ∉ name ∧ name ≠ ['.'] ∧ name ≠ ['.', '.'] := by
  simp [isEntryName, and_assoc]

@[simp] theorem component?_nil (first : Bool) : component? first [] = none := rfl

theorem component?_of_isEntryName (h : isEntryName name) (first : Bool) :
    component? first name = some (.name name) := by
  obtain ⟨hnil, -, hhere, hup⟩ := isEntryName_iff.1 h
  simp [component?, hnil, hhere, hup]

theorem splitOn_of_isEntryName (h : isEntryName name) : name.splitOn '/' = [name] :=
  List.splitOn_eq_singleton (isEntryName_iff.1 h).2.1

theorem components_append_slash (p q : Text) :
    components (p ++ '/' :: q) =
      (if p = [] then [.root] else components p) ++ (q.splitOn '/').filterMap (component? false) := by
  cases p with
  | nil => simp [components, List.splitOn_cons_eq_if_modifyHead, component?]
  | cons c p =>
    obtain ⟨piece, rest, hp⟩ := List.exists_cons_of_ne_nil (List.splitOn_ne_nil '/' (c :: p))
    simp only [components, List.cons_append, List.head?_cons]
    rw [← List.cons_append, List.splitOn_append_cons_self, hp]
    by_cases hc : c = '/' <;> simp [hc, ← List.filterMap_append]

theorem exists_join {p : Text} (name : Text) : ∃ q, join p name = p ++ q := by
  unfold join
  split <;> exact ⟨_, rfl⟩

/-- The path of an entry continues the path of its directory. -/
theorem components_join (h : isEntryName name) (p : Text) :
    components (join p name) = components p ++ [.name name] := by
  have hname := component?_of_isEntryName h
  have hsplit := splitOn_of_isEntryName h
  by_cases hnil : p = []
  · have hhead : name.head? ≠ some '/' := fun he => (isEntryName_iff.1 h).2.1 (List.mem_of_head? he)
    rw [hnil, join, if_pos (.inl rfl), List.nil_append, components, if_neg hhead, hsplit]
    simp [components, hname]
  · by_cases hslash : p.getLast? = some '/'
    · obtain ⟨q, rfl⟩ := List.getLast?_eq_some_iff.1 hslash
      rw [join, if_pos (.inr hslash), List.append_assoc, List.singleton_append, components_append_slash,
        components_append_slash, hsplit]
      simp [hname]
    · rw [join, if_neg (by simp [hnil, hslash]), components_append_slash, if_neg hnil, hsplit]
      simp [hname]

end Path

namespace FileTree

open LineCensus.Path (Component components component? isEntryName)

/-! ### Trees without links -/

namespace Node

mutual

/-- The node holds no links, and every directory in it holds its entries under names of their
own. -/
def isPlain : Node → Bool
  | file _ => true
  | link _ => false
  | directory cs => arePlain cs

/-- The children are plain, under names of their own. -/
def arePlain : List (Text × Node) → Bool
  | [] => true
  | (name, c) :: rest => isEntryName name && rest.all (fun d => d.1 ≠ name) && c.isPlain && arePlain rest

end

variable {n c : Node} {cs : List (Text × Node)} {name : Text}

theorem plain_of_mem (h : arePlain cs) (hc : (name, c) ∈ cs) :
    isEntryName name ∧ c.isPlain ∧ cs.lookup name = some c := by
  induction cs with
  | nil => cases hc
  | cons d rest ih =>
    obtain ⟨k, d⟩ := d
    simp only [arePlain, Bool.and_eq_true, List.all_eq_true, decide_eq_true_eq] at h
    obtain ⟨⟨⟨hk, hfresh⟩, hd⟩, hrest⟩ := h
    rcases List.mem_cons.1 hc with he | hc
    · cases he
      exact ⟨hk, hd, by simp⟩
    · obtain ⟨hname, hplain, hlookup⟩ := ih hrest hc
      refine ⟨hname, hplain, ?_⟩
      rw [List.lookup_cons, beq_false_of_ne (hfresh _ hc), hlookup]

theorem at?_append (n : Node) (l k : Location) : n.at? (l ++ k) = (n.at? l).bind (Node.at? · k) := by
  induction l generalizing n with
  | nil => rfl
  | cons name l ih =>
    simp only [List.cons_append, at?]
    cases n.children.lookup name with
    | none => rfl
    | some c => exact ih c

theorem isPlain_at? {l : Location} (h : n.isPlain) (hc : n.at? l = some c) : c.isPlain := by
  induction l generalizing n with
  | nil =>
    cases hc
    exact h
  | cons name l ih =>
    simp only [at?] at hc
    split at hc
    · rename_i d hd
      refine ih ?_ hc
      cases n with
      | directory cs =>
        have hmem : (name, d) ∈ cs := by
          obtain ⟨before, after, rfl, -⟩ := List.lookup_eq_some_iff.1 hd
          simp
        exact (plain_of_mem (by simpa [isPlain] using h) hmem).2.1
      | _ => cases hd
    · cases hc

end Node

variable {t : FileTree} {l m : Location} {p name : Text}

theorem at?_entry {cs : List (Text × Node)} {c : Node} (ht : t.top.isPlain) (hl : t.at? l = some (.directory cs))
    (hc : (name, c) ∈ cs) : isEntryName name ∧ t.at? (l ++ [name]) = some c := by
  obtain ⟨hname, -, hlookup⟩ := Node.plain_of_mem (by simpa [Node.isPlain] using Node.isPlain_at? ht hl) hc
  refine ⟨hname, ?_⟩
  rw [at?, Node.at?_append, show t.top.at? l = _ from hl]
  simp [Node.at?, Node.children, hlookup]

/-! ### Where a path leads -/

/-- Where a component leads from a location. -/
def enter (l : Location) : Component → Location
  | .root => []
  | .here => l
  | .up => l.dropLast
  | .name t => l ++ [t]

/-- Where components lead, one after the other. -/
def destination (l : Location) (cs : List Component) : Location := cs.foldl enter l

@[simp] theorem destination_nil (l : Location) : destination l [] = l := rfl

@[simp] theorem destination_cons (l : Location) (c : Component) (cs : List Component) :
    destination l (c :: cs) = destination (enter l c) cs := rfl

theorem destination_append (l : Location) (cs ds : List Component) :
    destination l (cs ++ ds) = destination (destination l cs) ds := List.foldl_append

theorem destination_names (l : Location) (ns : List Text) : destination l (ns.map .name) = l ++ ns := by
  induction ns generalizing l with
  | nil => simp
  | cons n ns ih => simp [enter, ih]

theorem nil_notMem_steps (p : Text) : [] ∉ steps p := by
  simp only [steps, List.mem_append, List.mem_filter]
  split <;> simp

/-- The components of a path lead where its steps do. -/
theorem destination_components (t : FileTree) (p : Text) :
    destination t.workingDirectory (components p) =
      destination (t.origin p) ((steps p).filterMap (component? false)) := by
  have hpieces : (steps p).filterMap (component? false) = (p.splitOn '/').filterMap (component? false) := by
    have hlast : (if p.getLast? = some '/' then [['.']] else []).filterMap (component? false) = [] := by
      split <;> simp [component?]
    rw [steps, List.filterMap_append, hlast, List.append_nil, List.filterMap_filter]
    congr 1
    funext piece
    by_cases hpiece : piece = [] <;> simp [hpiece]
  rw [hpieces, components, origin]
  by_cases hroot : p.head? = some '/'
  · simp [hroot, enter]
  · obtain ⟨piece, rest, hp⟩ := List.exists_cons_of_ne_nil (List.splitOn_ne_nil '/' p)
    simp only [hroot, if_false, hp, List.filterMap_cons]
    by_cases hpiece : piece = []
    · simp [hpiece]
    · by_cases hdot : piece = ['.']
      · simp [hdot, component?, enter]
      · by_cases hup : piece = ['.', '.'] <;> simp [hpiece, hdot, hup, component?]

/-- A step in a tree without links. -/
theorem walkSteps_cons (ht : t.top.isPlain) (follow : Bool) (links : Nat) (l : Location) (step : Text)
    (rest : List Text) :
    t.walkSteps follow links l (step :: rest) =
      if !((t.at? l).any Node.isDirectory) then .error .notDirectory
      else if step = ['.'] then t.walkSteps follow links l rest
      else if step = ['.', '.'] then t.walkSteps follow links l.dropLast rest
      else if (t.at? (l ++ [step])).isNone then .error .missing
      else t.walkSteps follow links (l ++ [step]) rest := by
  rw [walkSteps]
  split
  · rfl
  · split
    · rfl
    · split
      · rfl
      · split
        · simp_all
        · rename_i hlink
          cases Node.isPlain_at? ht hlink
        · simp_all

theorem walkSteps_append (ht : t.top.isPlain) (follow : Bool) (links : Nat) (l : Location) (ss us : List Text) :
    t.walkSteps follow links l (ss ++ us) =
      (t.walkSteps follow links l ss).bind fun m => t.walkSteps follow links m us := by
  induction ss generalizing l with
  | nil => simp [walkSteps, Except.bind]
  | cons step ss ih =>
    rw [List.cons_append, walkSteps_cons ht, walkSteps_cons ht, ih, ih, ih]
    split_ifs <;> rfl

theorem walkSteps_eq (ht : t.top.isPlain) {follow : Bool} {links : Nat} {ss : List Text} (hss : [] ∉ ss)
    (h : t.walkSteps follow links l ss = .ok m) : m = destination l (ss.filterMap (component? false)) := by
  induction ss generalizing l with
  | nil =>
    rw [walkSteps] at h
    cases h
    rfl
  | cons step ss ih =>
    rw [List.mem_cons, not_or] at hss
    rw [walkSteps_cons ht] at h
    split_ifs at h with hdir hdot hup hnone
    · simpa [hdot, component?] using ih hss.2 h
    · simpa [hup, component?, enter] using ih hss.2 h
    · simpa [component?, Ne.symm hss.1, hdot, hup, enter] using ih hss.2 h

/-- A path that leads anywhere leads where its components do. -/
theorem locate_eq (ht : t.top.isPlain) (h : t.locate true p = .ok l) :
    l = destination t.workingDirectory (components p) := by
  rw [locate] at h
  split at h
  · cases h
  · rw [destination_components]
    exact walkSteps_eq ht (nil_notMem_steps p) h

theorem steps_of_notMem {p : Text} (hp : p ≠ []) (hslash : '/' ∉ p) : steps p = [p] := by
  have hlast : p.getLast? ≠ some '/' := fun h => hslash (List.mem_of_getLast? h)
  rw [steps, if_neg hlast, List.splitOn_eq_singleton hslash]
  simp [hp]

theorem steps_append_slash (hnil : name ≠ []) (hslash : '/' ∉ name) (p : Text) :
    steps (p ++ '/' :: name) = (p.splitOn '/').filter (· ≠ []) ++ [name] := by
  have hlast : (p ++ '/' :: name).getLast? ≠ some '/' := by
    intro h
    rw [List.getLast?_append, List.getLast?_cons_of_ne_nil hnil, List.getLast?_eq_some_getLast hnil,
      Option.some_or, Option.some_inj] at h
    exact hslash (h ▸ List.getLast_mem hnil)
  rw [steps, if_neg hlast, List.splitOn_append_cons_self, List.splitOn_eq_singleton hslash]
  simp [hnil]

/-- The path of an entry takes the steps of the path of its directory, and one more; a step to the
directory itself at the end is left out. -/
theorem steps_join (hname : isEntryName name) (hp : p ≠ []) :
    ∃ ss, (steps p = ss ∨ steps p = ss ++ [['.']]) ∧ steps (Path.join p name) = ss ++ [name] := by
  obtain ⟨hnil, hnoslash, -⟩ := Path.isEntryName_iff.1 hname
  by_cases hslash : p.getLast? = some '/'
  · obtain ⟨q, rfl⟩ := List.getLast?_eq_some_iff.1 hslash
    refine ⟨(q.splitOn '/').filter (· ≠ []), .inr ?_, ?_⟩
    · rw [steps, if_pos hslash, List.splitOn_append_cons_self]
      simp
    · rw [Path.join, if_pos (.inr hslash), List.append_assoc, List.singleton_append,
        steps_append_slash hnil hnoslash]
  · refine ⟨(p.splitOn '/').filter (· ≠ []), .inl ?_, ?_⟩
    · rw [steps, if_neg hslash, List.append_nil]
    · rw [Path.join, if_neg (by simp [hp, hslash]), steps_append_slash hnil hnoslash]

/-- A step to the directory itself at the end may be left out. -/
theorem walkSteps_dropHere (ht : t.top.isPlain) {follow : Bool} {links : Nat} {ss : List Text}
    (h : t.walkSteps follow links l (ss ++ [['.']]) = .ok m) : t.walkSteps follow links l ss = .ok m := by
  rw [walkSteps_append ht] at h
  cases hw : t.walkSteps follow links l ss with
  | error e =>
    rw [hw] at h
    cases h
  | ok k =>
    simp only [hw, Except.bind, walkSteps_cons ht, walkSteps] at h
    split_ifs at h
    exact h

theorem walkSteps_entry (ht : t.top.isPlain) {follow : Bool} {links : Nat} {cs : List (Text × Node)} {c : Node}
    (hl : t.at? l = some (.directory cs)) (hc : (name, c) ∈ cs) :
    t.walkSteps follow links l [name] = .ok (l ++ [name]) := by
  obtain ⟨hname, hat⟩ := at?_entry ht hl hc
  obtain ⟨-, -, hhere, hup⟩ := Path.isEntryName_iff.1 hname
  simp [walkSteps_cons ht, walkSteps, hl, hat, hhere, hup, Node.isDirectory]

/-- The path of an entry leads where the path of its directory does, and one name further. -/
theorem locate_join {cs : List (Text × Node)} {c : Node} (ht : t.top.isPlain) (hp : t.locate true p = .ok l)
    (hl : t.at? l = some (.directory cs)) (hc : (name, c) ∈ cs) :
    t.locate true (Path.join p name) = .ok (l ++ [name]) := by
  rw [locate] at hp
  split at hp
  · cases hp
  · rename_i hnil
    obtain ⟨ss, hsteps, hjoin⟩ := steps_join (at?_entry ht hl hc).1 hnil
    have hss : t.walkSteps true linkLimit (t.origin p) ss = .ok l := by
      rcases hsteps with h | h
      · rwa [h] at hp
      · exact walkSteps_dropHere ht (h ▸ hp)
    obtain ⟨q, hq⟩ := Path.exists_join (p := p) name
    have hne : Path.join p name ≠ [] := by simp [hq, hnil]
    have horigin : t.origin (Path.join p name) = t.origin p := by
      cases p with
      | nil => exact absurd rfl hnil
      | cons c p => simp [origin, hq]
    rw [locate, if_neg hne, hjoin, horigin, walkSteps_append ht, hss]
    exact walkSteps_entry ht hl hc

/-- A file in the working directory is read by its name. -/
theorem read_entry {cs : List (Text × Node)} {bytes : List UInt8} (ht : t.top.isPlain)
    (hl : t.at? t.workingDirectory = some (.directory cs)) (hc : (name, .file bytes) ∈ cs) : t.read name = .ok bytes := by
  obtain ⟨hname, hat⟩ := at?_entry ht hl hc
  obtain ⟨hnil, hslash, -⟩ := Path.isEntryName_iff.1 hname
  have horigin : t.origin name = t.workingDirectory := by
    rw [origin, if_neg fun h => hslash (List.mem_of_head? h)]
  have hlocate : t.locate true name = .ok (t.workingDirectory ++ [name]) := by
    rw [locate, if_neg hnil, steps_of_notMem hnil hslash, horigin, walkSteps_entry ht hl hc]
  have hfind : t.find name = .ok (.file bytes) := by
    simp only [find, hlocate, bind, Except.bind, hat]
    rfl
  rw [read, hfind]
  rfl

end FileTree

end LineCensus
