import TokenGame.Proofs.Search.Graph
import TokenGame.Proofs.Text.Spelling

/-! Graphs read back from their DOT texts. A text is cut into tokens, where quotes are the only
place in which blanks and marks mean nothing, and the tokens are read as statements. Ids are
escaped so that no character of them ends the quotes around them. -/
namespace TokenGame

namespace Dot

/-! ### Reading -/

inductive Token where
  /-- A name or a numeral that stands without quotes. -/
  | word (text : String)
  | quoted (text : String)
  | arrow
  | mark (c : Char)
  deriving DecidableEq, Repr

/-- What is being read. Characters are kept with the last one first. -/
inductive Mode where
  | between
  | word (reversed : List Char)
  | dash
  | quoted (reversed : List Char)
  /-- Inside quotes, after the backslash of a pair. -/
  | pair (reversed : List Char)
  deriving DecidableEq, Repr

structure Scan where
  /-- The tokens so far, the last one first. -/
  tokens : List Token := []
  mode : Mode := .between
  deriving DecidableEq, Repr

def isBlank (c : Char) : Bool := c = ' ' || c = '\t' || c = '\n' || c = '\r'

def isWordChar (c : Char) : Bool := c.isAlphanum || c = '_'

def isMark (c : Char) : Bool := ['{', '}', '[', ']', '=', ','].contains c

/-- What a backslash and the character after it stand for, the last character first. A pair
that has no meaning stands for itself. -/
def pairValue : Char → List Char
  | '\\' => ['\\']
  | '"' => ['"']
  | 'n' => ['\n']
  | c => [c, '\\']

/-- Reads a character that stands between tokens. -/
def begin? (tokens : List Token) (c : Char) : Option Scan :=
  if isWordChar c then some ⟨tokens, .word [c]⟩
  else if isBlank c then some ⟨tokens, .between⟩
  else if c = '"' then some ⟨tokens, .quoted []⟩
  else if c = '-' then some ⟨tokens, .dash⟩
  else if isMark c then some ⟨.mark c :: tokens, .between⟩
  else none

/-- Inside quotes a backslash takes the next character with it, and a double quote that is
not taken ends the text. -/
def step? (s : Scan) (c : Char) : Option Scan :=
  match s.mode with
  | .between => begin? s.tokens c
  | .word reversed =>
    if isWordChar c then some ⟨s.tokens, .word (c :: reversed)⟩
    else begin? (.word (String.ofList reversed.reverse) :: s.tokens) c
  | .dash => if c = '>' then some ⟨.arrow :: s.tokens, .between⟩ else none
  | .quoted reversed =>
    if c = '"' then some ⟨.quoted (String.ofList reversed.reverse) :: s.tokens, .between⟩
    else if c = '\\' then some ⟨s.tokens, .pair reversed⟩
    else some ⟨s.tokens, .quoted (c :: reversed)⟩
  | .pair reversed => some ⟨s.tokens, .quoted (pairValue c ++ reversed)⟩

/-- The tokens of a text that ends between tokens. -/
def scan? (text : String) : Option (List Token) := do
  let s ← text.toList.foldlM step? {}
  if s.mode = .between then some s.tokens.reverse else none

inductive Statement where
  | node (id : String) (attributes : List (String × String))
  | edge (source target : String) (attributes : List (String × String))
  deriving DecidableEq, Repr

def Token.value? : Token → Option String
  | .word text | .quoted text => some text
  | .arrow | .mark _ => none

/-- The attributes up to the closing bracket, and what follows it. -/
def attributes? : List Token → Option (List (String × String) × List Token)
  | .word name :: .mark '=' :: value :: .mark ']' :: rest => do
    return ([(name, ← value.value?)], rest)
  | .word name :: .mark '=' :: value :: .mark ',' :: rest => do
    let value ← value.value?
    let (more, rest) ← attributes? rest
    return ((name, value) :: more, rest)
  | _ => none

/-- The statements up to the closing brace, at most as many as the bound. -/
def statements? : (bound : Nat) → List Token → Option (List Statement)
  | _, [.mark '}'] => some []
  | bound + 1, .word id :: .mark '[' :: rest => do
    let (attributes, rest) ← attributes? rest
    return .node id attributes :: (← statements? bound rest)
  | bound + 1, .word source :: .arrow :: .word target :: .mark '[' :: rest => do
    let (attributes, rest) ← attributes? rest
    return .edge source target attributes :: (← statements? bound rest)
  | _, _ => none

/-- The statements of a directed graph. -/
def read? (text : String) : Option (List Statement) := do
  match ← scan? text with
  | .word "digraph" :: .mark '{' :: rest => statements? rest.length rest
  | _ => none

/-! ### Scanning -/

/-- Between tokens the characters are read as the tokens, whatever comes before and after. -/
def Scans (chars : List Char) (tokens : List Token) : Prop :=
  ∀ before, chars.foldlM step? ⟨before, .between⟩ = some ⟨tokens.reverse ++ before, .between⟩

theorem Scans.append {chars more : List Char} {tokens others : List Token}
    (scans : Scans chars tokens) (scansMore : Scans more others) :
    Scans (chars ++ more) (tokens ++ others) := by
  intro before
  rw [List.foldlM_append, scans before, Option.bind_eq_bind, Option.bind_some, scansMore]
  simp

theorem Scans.nil : Scans [] [] := fun _ => rfl

theorem scan?_of_scans {text : String} {tokens : List Token} (scans : Scans text.toList tokens) :
    scan? text = some tokens := by
  simp [scan?, scans []]

theorem foldlM_word {chars : List Char} (each : ∀ c ∈ chars, isWordChar c = true)
    (before : List Token) (read : List Char) :
    chars.foldlM step? ⟨before, .word read⟩ = some ⟨before, .word (chars.reverse ++ read)⟩ := by
  induction chars generalizing read with
  | nil => rfl
  | cons c chars ih =>
    obtain ⟨first, each⟩ := List.forall_mem_cons.mp each
    simp [step?, first, ih each]

/-- A word ends where something comes that cannot continue it. -/
theorem scans_word {word : List Char} (nonempty : word ≠ [])
    (each : ∀ c ∈ word, isWordChar c = true) {c : Char} {tokens : List Token}
    (apart : isWordChar c = false) (scans : Scans [c] tokens) :
    Scans (word ++ [c]) (.word (String.ofList word) :: tokens) := by
  intro before
  obtain ⟨first, word, rfl⟩ := List.exists_cons_of_ne_nil nonempty
  obtain ⟨start, each⟩ := List.forall_mem_cons.mp each
  have opens : begin? before first = some ⟨before, .word [first]⟩ := by simp [begin?, start]
  have closes := scans (.word (String.ofList (first :: word)) :: before)
  simpa [step?, opens, foldlM_word each, apart] using closes

/-- What may stand for a character inside quotes. -/
inductive Stands : List Char → Char → Prop where
  | plain {c : Char} : c ≠ '"' → c ≠ '\\' → Stands [c] c
  | pair {e c : Char} : pairValue e = [c] → Stands ['\\', e] c

theorem foldlM_quoted {body chars : List Char} (holds : Piecewise Stands body chars)
    (before : List Token) (read : List Char) : body.foldlM step? ⟨before, .quoted read⟩ =
      some ⟨before, .quoted (chars.reverse ++ read)⟩ := by
  induction holds generalizing read with
  | nil => rfl
  | cons stands _ ih =>
    rw [List.foldlM_append]
    cases stands with
    | plain quote backslash => simp [step?, quote, backslash, ih]
    | pair value => simp [step?, value, ih]

theorem scans_quoted {body : List Char} {text : String}
    (holds : Piecewise Stands body text.toList) :
    Scans ('"' :: body ++ ['"']) [.quoted text] := by
  intro before
  have opens : begin? before '"' = some ⟨before, .quoted []⟩ := rfl
  simp [opens, foldlM_quoted holds, step?]

/-- A number and a blank after it. -/
theorem scans_number (n : Nat) : Scans (Nat.toDigits 10 n ++ [' ']) [.word (toString n)] := by
  have spelled : toString n = String.ofList (Nat.toDigits 10 n) := by
    rw [← String.toList_inj]
    simp
  rw [spelled]
  refine scans_word Nat.toDigits_ne_nil (forall_mem_toDigits (fun c digit => ?_) n) rfl fun _ => rfl
  simp [isWordChar, Char.isAlphanum, digit]

theorem scans_join {α : Type} {text : α → String} {tokens : α → List Token}
    (each : ∀ a, Scans (text a).toList (tokens a)) (as : List α) :
    Scans (String.join (as.map text)).toList (as.flatMap tokens) := by
  induction as with
  | nil => exact .nil
  | cons a as ih => simpa using (each a).append ih

/-! ### Statements -/

/-- Where the tokens of one statement are read, those of some are. -/
theorem statements?_flatMap {α : Type} {tokens : α → List Token} {statement : α → Statement}
    (one : ∀ a bound rest, statements? (bound + 1) (tokens a ++ rest) =
      (statements? bound rest).map (statement a :: ·)) (as : List α) (bound : Nat)
    (rest : List Token) : statements? (as.length + bound) (as.flatMap tokens ++ rest) =
      (statements? bound rest).map (as.map statement ++ ·) := by
  induction as with
  | nil => simp
  | cons a as ih =>
    rw [List.length_cons, Nat.add_right_comm, List.flatMap_cons, List.append_assoc, one, ih,
      Option.map_map]
    rfl

theorem length_le_flatMap {α : Type} (tokens : α → List Token)
    (nonempty : ∀ a, 0 < (tokens a).length) (as : List α) :
    as.length ≤ (as.flatMap tokens).length := by
  induction as with
  | nil => simp
  | cons a as ih =>
    have first := nonempty a
    simp only [List.flatMap_cons, List.length_append, List.length_cons]
    omega

def Statement.isNode : Statement → Bool
  | .node .. => true
  | .edge .. => false

end Dot

namespace StateGraph

open Dot

/-! ### The statements of a graph -/

/-- A state is a node that shows its number and its tokens; a deadlock is filled. -/
def nodeStatement : Nat × String × Bool → Statement
  | (index, label, dead) => .node (toString index) (("label", s!"s{index}\n{label}") ::
    if dead then [("style", "filled"), ("fillcolor", "#ffcdd2")] else [])

/-- A firing is an edge that shows its transition. -/
def edgeStatement : Nat × Nat × String → Statement
  | (source, target, label) => .edge (toString source) (toString target) [("label", label)]

def fillTokens (dead : Bool) : List Token :=
  if dead then [.mark ',', .word "style", .mark '=', .word "filled", .mark ',', .word "fillcolor",
    .mark '=', .quoted "#ffcdd2"] else []

def nodeTokens : Nat × String × Bool → List Token
  | (index, label, dead) => [.word (toString index), .mark '[', .word "label", .mark '=',
      .quoted s!"s{index}\n{label}"] ++ fillTokens dead ++ [.mark ']']

def edgeTokens : Nat × Nat × String → List Token
  | (source, target, label) => [.word (toString source), .arrow, .word (toString target),
      .mark '[', .word "label", .mark '=', .quoted label, .mark ']']

theorem statements?_nodeTokens (n : Nat × String × Bool) (bound : Nat) (rest : List Token) :
    statements? (bound + 1) (nodeTokens n ++ rest) =
      (statements? bound rest).map (nodeStatement n :: ·) := by
  obtain ⟨index, label, dead⟩ := n
  cases dead <;> cases read : statements? bound rest <;>
    simp [nodeTokens, fillTokens, statements?, attributes?, Token.value?, read, nodeStatement]

theorem statements?_edgeTokens (e : Nat × Nat × String) (bound : Nat) (rest : List Token) :
    statements? (bound + 1) (edgeTokens e ++ rest) =
      (statements? bound rest).map (edgeStatement e :: ·) := by
  cases read : statements? bound rest <;>
    simp [edgeTokens, statements?, attributes?, Token.value?, read, edgeStatement]

/-- Inside quotes a backslash and a double quote are written after a backslash; everything else,
line breaks included, is written as it is. -/
theorem toList_escape (text : String) : (escape text).toList = text.toList.flatMap fun c =>
    if c = '\\' ∨ c = '"' then ['\\', c] else [c] := by
  -- the second pass leaves what the first one wrote, since there is no quote in it
  have passes (c : Char) : replaceEach '"' ['\\', '"'] (if c = '\\' then ['\\', '\\'] else [c]) =
      if c = '\\' ∨ c = '"' then ['\\', c] else [c] := by
    by_cases backslash : c = '\\'
    · simp [backslash, replaceEach]
    · by_cases quote : c = '"' <;> simp [backslash, quote, replaceEach]
  simp only [escape, replaceEach, String.toList_ofList, List.flatMap_assoc] at passes ⊢
  rw [funext passes]

theorem stands_escaped (c : Char) :
    Stands (if c = '\\' ∨ c = '"' then ['\\', c] else [c]) c := by
  split
  · rename_i special
    rcases special with rfl | rfl <;> exact .pair rfl
  · rename_i other
    exact .plain (fun quote => other (.inr quote)) fun backslash => other (.inl backslash)

theorem piecewise_escape (text : String) : Piecewise Stands (escape text).toList text.toList := by
  simpa [toList_escape] using Piecewise.flatMap stands_escaped text.toList

theorem piecewise_nodeLabel (index : Nat) (label : String) :
    Piecewise Stands ('s' :: Nat.toDigits 10 index ++ '\\' :: 'n' :: (escape label).toList)
      (s!"s{index}\n{label}").toList := by
  have digits : Piecewise Stands (Nat.toDigits 10 index) (Nat.toDigits 10 index) := by
    refine .verbatim (forall_mem_toDigits (fun c digit => .plain ?_ ?_) index) <;>
      rintro rfl <;> cases digit
  have start : Stands ['s'] 's' := .plain (by decide) (by decide)
  have lineBreak : Stands ['\\', 'n'] '\n' := .pair rfl
  simpa [toString] using
    Piecewise.cons start (digits.append (.cons lineBreak (piecewise_escape label)))

theorem scans_nodeText (g : StateGraph) (n : StateNode) : Scans (g.nodeText n).toList
    (nodeTokens (n.index, n.label, g.deadlocks.contains n.index)) := by
  have indent : Scans [' ', ' ', ' ', ' '] [] := fun _ => rfl
  have opens : Scans "[ label=".toList [.mark '[', .word "label", .mark '='] := fun _ => rfl
  have label := scans_quoted (piecewise_nodeLabel n.index n.label)
  have fill : Scans (if g.deadlocks.contains n.index then
      ", style=filled, fillcolor=\"#ffcdd2\"" else "").toList
      (fillTokens (g.deadlocks.contains n.index)) := by
    cases g.deadlocks.contains n.index <;> exact fun _ => rfl
  have closes : Scans [']', '\n'] [.mark ']'] := fun _ => rfl
  have all := ((((indent.append (scans_number n.index)).append opens).append label).append
    fill).append closes
  simpa [nodeText, nodeTokens, toString] using all

theorem scans_edgeText (e : StateEdge) : Scans (edgeText e).toList
    (edgeTokens (e.source, e.target, e.label)) := by
  have indent : Scans [' ', ' ', ' ', ' '] [] := fun _ => rfl
  have arrow : Scans ['-', '>', ' '] [.arrow] := fun _ => rfl
  have opens : Scans "[ label=".toList [.mark '[', .word "label", .mark '='] := fun _ => rfl
  have label := scans_quoted (piecewise_escape e.label)
  have closes : Scans [']', '\n'] [.mark ']'] := fun _ => rfl
  have all := (((((indent.append (scans_number e.source)).append arrow).append
    (scans_number e.target)).append opens).append label).append closes
  simpa [edgeText, edgeTokens, toString] using all

/-- What the text shows of the nodes: numbers, tokens, and which are deadlocks. -/
def shownNodes (g : StateGraph) : List (Nat × String × Bool) :=
  g.nodes.map fun n => (n.index, n.label, g.deadlocks.contains n.index)

/-- What the text shows of the edges: their ends and transitions. -/
def shownEdges (g : StateGraph) : List (Nat × Nat × String) :=
  g.edges.map fun e => (e.source, e.target, e.label)

def statements (g : StateGraph) : List Statement :=
  g.shownNodes.map nodeStatement ++ g.shownEdges.map edgeStatement

def tokens (g : StateGraph) : List Token :=
  g.shownNodes.flatMap nodeTokens ++ (g.shownEdges.flatMap edgeTokens ++ [.mark '}'])

theorem scan?_dot (g : StateGraph) :
    scan? g.dot = some (.word "digraph" :: .mark '{' :: g.tokens) := by
  have opens : Scans "digraph \x7b\n".toList [.word "digraph", .mark '{'] := fun _ => rfl
  have closes : Scans "\x7d\n".toList [.mark '}'] := fun _ => rfl
  have all := opens.append ((scans_join g.scans_nodeText g.nodes).append
    ((scans_join scans_edgeText g.edges).append closes))
  apply scan?_of_scans
  simpa [dot, tokens, shownNodes, shownEdges, List.flatMap_map] using all

theorem statements?_tokens (g : StateGraph) :
    statements? g.tokens.length g.tokens = some g.statements := by
  obtain ⟨spare, enough⟩ : ∃ spare,
      g.tokens.length = g.shownNodes.length + (g.shownEdges.length + spare) := by
    have nodes := length_le_flatMap nodeTokens (by simp [nodeTokens]) g.shownNodes
    have edges := length_le_flatMap edgeTokens (by simp [edgeTokens]) g.shownEdges
    refine ⟨g.tokens.length - (g.shownNodes.length + g.shownEdges.length), ?_⟩
    rw [tokens, List.length_append, List.length_append]
    omega
  have closed : statements? spare [.mark '}'] = some [] := by cases spare <;> rfl
  rw [enough, tokens, statements?_flatMap statements?_nodeTokens,
    statements?_flatMap statements?_edgeTokens, closed]
  simp [statements]

/-- A graph's text is read as the statements about its nodes, and then about its edges. -/
theorem read?_dot (g : StateGraph) : read? g.dot = some g.statements := by
  rw [read?, scan?_dot]
  exact g.statements?_tokens

/-! ### What a text tells -/

theorem eq_of_toString_eq {m n : Nat} (same : toString m = toString n) : m = n := by
  have digits : Nat.toDigits 10 m = Nat.toDigits 10 n := by simpa using congrArg String.toList same
  rw [← Nat.ofDigitChars_ten_toDigits (n := m), digits, Nat.ofDigitChars_ten_toDigits]

theorem nodeStatement_injective : Function.Injective nodeStatement := by
  rintro ⟨i, label, dead⟩ ⟨j, other, dead'⟩ same
  simp only [nodeStatement, Statement.node.injEq, List.cons.injEq, Prod.mk.injEq, true_and] at same
  obtain ⟨index, text, fill⟩ := same
  obtain rfl := eq_of_toString_eq index
  obtain rfl : label = other := (String.append_right_inj _).mp text
  cases dead <;> cases dead' <;> simp at fill ⊢

theorem edgeStatement_injective : Function.Injective edgeStatement := by
  rintro ⟨i, j, label⟩ ⟨k, l, other⟩ same
  simp only [edgeStatement, Statement.edge.injEq, List.cons.injEq, Prod.mk.injEq, true_and,
    and_true] at same
  obtain ⟨source, target, rfl⟩ := same
  rw [eq_of_toString_eq source, eq_of_toString_eq target]

/-- Graphs with one text show the same nodes and edges. -/
theorem shown_of_dot_eq {g other : StateGraph} (same : g.dot = other.dot) :
    g.shownNodes = other.shownNodes ∧ g.shownEdges = other.shownEdges := by
  have statements : g.statements = other.statements := by
    have read := g.read?_dot
    rw [same, read?_dot] at read
    exact (Option.some.inj read).symm
  -- The nodes are what a filter keeps of the statements.
  have keeps (g : StateGraph) : g.statements.filter Statement.isNode =
      g.shownNodes.map nodeStatement := by
    have nodes : ∀ n ∈ g.shownNodes, (Statement.isNode ∘ nodeStatement) n = true := fun _ _ => rfl
    have edges : ∀ e ∈ g.shownEdges, ¬ (Statement.isNode ∘ edgeStatement) e = true :=
      fun _ _ => Bool.false_ne_true
    rw [StateGraph.statements, List.filter_append, List.filter_map, List.filter_map,
      List.filter_eq_self.mpr nodes, List.filter_eq_nil_iff.mpr edges]
    simp
  have nodes : g.shownNodes = other.shownNodes := by
    apply nodeStatement_injective.list_map
    rw [← keeps, ← keeps, statements]
  refine ⟨nodes, edgeStatement_injective.list_map ?_⟩
  rw [StateGraph.statements, StateGraph.statements, nodes] at statements
  exact List.append_cancel_left statements

/-- The graph of a search in a net that was compiled from a model. -/
def Explored (g : StateGraph) : Prop :=
  ∃ (model : Model) (net : Net) (c : SearchConfig) (m : Marking) (s : Search),
    Net.ofModel model = .ok net ∧ net.search c m = .ok s ∧ g = ofSearch net s

section

variable {net : Net} {c : SearchConfig} {m : Marking} {s : Search}

theorem nodeStatements_ofSearch (finished : s.Finished net c m) :
    (ofSearch net s).shownNodes.map nodeStatement = s.states.toList.mapIdx fun i a =>
      nodeStatement (i, describe net a.marking, (ofSearch net s).deadlocks.contains i) := by
  rw [shownNodes, Search.nodes_ofSearch, finished.visited, List.map_map, List.map_map]
  apply List.ext_getElem <;> simp

theorem edgeStatements_ofSearch (net : Net) (s : Search) :
    (ofSearch net s).shownEdges.map edgeStatement = (ofSearch net s).edges.map fun e =>
      edgeStatement (e.source, e.target, net.transitionName e.transition) := by
  rw [shownEdges, List.map_map]
  refine List.map_congr_left fun e member => ?_
  rw [Function.comp_apply, (Search.mem_edges_ofSearch.mp member).2]

/-- A state is a deadlock if it is shown as one. -/
theorem mem_deadlocks_iff_shown (finished : s.Finished net c m) {i : Nat} :
    i ∈ (ofSearch net s).deadlocks ↔ ∃ label, (i, label, true) ∈ (ofSearch net s).shownNodes := by
  have induced := finished.graph_induced
  constructor
  · intro dead
    obtain ⟨a, found, _⟩ := (induced.deadlocks i).mp dead
    have node := induced.nodes i
    rw [found] at node
    exact ⟨describe net a.marking,
      List.mem_map.mpr ⟨_, List.mem_of_getElem? node, by simp [dead]⟩⟩
  · rintro ⟨label, shown⟩
    obtain ⟨n, _, same⟩ := List.mem_map.mp shown
    simp only [Prod.mk.injEq, List.contains_iff_mem] at same
    exact same.1 ▸ same.2.2

end

/-- Whatever the ids of a net are, the text of a state graph is read as one statement for each
state, in their order, which shows its number and its tokens and is filled if the state is a
deadlock, and then one for each edge, in their order, which shows the transition's id. So graphs
with one text have the same labels, the same deadlocks and the same edges. -/
theorem dot_read_back :
    (∀ (model : Model) (net : Net) (c : SearchConfig) (m : Marking) (s : Search),
      Net.ofModel model = .ok net → net.search c m = .ok s →
        Dot.read? (ofSearch net s).dot = some (
          (s.states.toList.mapIdx fun i a => nodeStatement
            (i, describe net a.marking, (ofSearch net s).deadlocks.contains i)) ++
          (ofSearch net s).edges.map fun e => edgeStatement
            (e.source, e.target, net.transitionName e.transition))) ∧
      ∀ g other : StateGraph, g.Explored → other.Explored → g.dot = other.dot →
        g.nodes.map (·.label) = other.nodes.map (·.label) ∧
          (∀ i, i ∈ g.deadlocks ↔ i ∈ other.deadlocks) ∧
          g.edges.map (fun e => (e.source, e.target, e.label)) =
            other.edges.map fun e => (e.source, e.target, e.label) := by
  constructor
  · intro model net c m s compiled searched
    have finished := (Net.wellFormed_of_ofModel compiled).finished searched
    rw [read?_dot, statements, nodeStatements_ofSearch finished, edgeStatements_ofSearch]
  · rintro _ _ ⟨model, net, c, m, s, compiled, searched, rfl⟩
      ⟨model', net', c', m', s', compiled', searched', rfl⟩ same
    have finished := (Net.wellFormed_of_ofModel compiled).finished searched
    have finished' := (Net.wellFormed_of_ofModel compiled').finished searched'
    obtain ⟨nodes, edges⟩ := shown_of_dot_eq same
    refine ⟨?_, fun i => ?_, edges⟩
    · simpa [shownNodes, Function.comp_def] using congrArg (List.map (·.2.1)) nodes
    · rw [mem_deadlocks_iff_shown finished, mem_deadlocks_iff_shown finished', nodes]

/-- One token on a place, and a transition that takes it away. The ids look like DOT. -/
def thorn : Net where
  places := [{ id := "\"]\n\x7d\\", tokens := 1 }]
  transitions := [{ id := "\\n\" -> 0 [" }]
  flows := #[⟨[⟨0, 1⟩], []⟩]

theorem search_thorn : ∃ s,
    thorn.search { maxDepth := 1, maxStates := 2 } thorn.initialMarking = .ok s ∧
      s.states.toList = [⟨thorn.initialMarking, 0, none⟩, ⟨.ofList [0], 1, some (0, 0)⟩] ∧
      s.events.toList = [.state 0 thorn.initialMarking 0, .state 1 (.ofList [0]) 1, .edge 0 0 1,
        .deadlock 1] := by
  have start : thorn.enabledTransitions thorn.initialMarking = [0] := rfl
  have done : thorn.enabledTransitions (.ofList [0]) = [] := rfl
  have take : thorn.fireTransition thorn.initialMarking 0 = .ok (.ofList [0]) := rfl
  have apart : thorn.initialMarking ≠ .ofList [0] := by decide
  have sized : thorn.initialMarking.size = thorn.places.length := rfl
  refine exists_congr (fun s => and_congr_left' Net.search_ok_iff) |>.mpr ?_
  simp [Search.run, Search.expand, Search.start, Search.discover, Search.follow, Search.note,
    start, done, take, apart, sized, bind, Except.bind, pure, Except.pure, SearchConfig.validate]

theorem search_thorn_empty : ∃ s,
    thorn.search { maxDepth := 1, maxStates := 2 } (.ofList [0]) = .ok s ∧
      s.events.toList = [.state 0 (.ofList [0]) 0, .deadlock 0] := by
  have done : thorn.enabledTransitions (.ofList [0]) = [] := rfl
  have sized : (Marking.ofList [0]).size = thorn.places.length := rfl
  refine exists_congr (fun s => and_congr_left' Net.search_ok_iff) |>.mpr ?_
  simp [Search.run, Search.expand, Search.start, Search.discover, Search.note, done, sized, bind,
    Except.bind, SearchConfig.validate]

/-- What looks like DOT in the ids is read as part of the labels, and a graph with fewer states
has another text. -/
theorem dot_read_back_thorn : ∃ s s',
    thorn.search { maxDepth := 1, maxStates := 2 } thorn.initialMarking = .ok s ∧
      thorn.search { maxDepth := 1, maxStates := 2 } (.ofList [0]) = .ok s' ∧
      Dot.read? (ofSearch thorn s).dot = some [
        .node "0" [("label", "s0\n\"]\n\x7d\\:1")],
        .node "1" [("label", "s1\n"), ("style", "filled"), ("fillcolor", "#ffcdd2")],
        .edge "0" "1" [("label", "\\n\" -> 0 [")]] ∧
      (ofSearch thorn s).dot ≠ (ofSearch thorn s').dot := by
  have compiled : Net.ofModel ⟨thorn.places, thorn.transitions,
      [⟨"a", "\"]\n\x7d\\", "\\n\" -> 0 [", 1⟩]⟩ = .ok thorn := rfl
  obtain ⟨s, searched, states, events⟩ := search_thorn
  obtain ⟨s', searched', events'⟩ := search_thorn_empty
  refine ⟨s, s', searched, searched', ?_, fun same => ?_⟩
  · rw [dot_read_back.1 _ _ _ _ _ compiled searched, states]
    simp [ofSearch, events]
    decide +kernel
  · have labels := (dot_read_back.2 _ _ ⟨_, _, _, _, _, compiled, searched, rfl⟩
      ⟨_, _, _, _, _, compiled, searched', rfl⟩ same).1
    simp [ofSearch, events, events'] at labels

end StateGraph

end TokenGame
