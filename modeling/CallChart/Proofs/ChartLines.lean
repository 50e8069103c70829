import Mathlib.Data.List.Forall2
import CallChart.Proofs.Drawing
import CallChart.Render

/-! The text of a chart, line by line. Labels may hold anything, but what is written of them is escaped after it was cut,
so it has no double quote and no line feed. Numbers of copies add neither to an id. So the lines of the text are the
lines that were put together, and each edge has its own, from one box to another. -/

namespace CallChart

namespace Text

def lines (text : String) : List String := (text.split '\n').toList.map (·.copy)

/-- A text that can stand between double quotes on one line. -/
def Fits (text : String) : Prop := '"' ∉ text.toList ∧ '\n' ∉ text.toList

instance (text : String) : Decidable (Fits text) := inferInstanceAs (Decidable (_ ∧ _))

theorem lines_intercalate {parts : List String} (some : parts ≠ []) (plain : ∀ part ∈ parts, '\n' ∉ part.toList) :
    lines ("\n".intercalate parts) = parts := by
  have split := String.toList_split_intercalate plain
  rw [if_neg some] at split
  exact split

theorem Fits.append {front back : String} (first : Fits front) (second : Fits back) : Fits (front ++ back) := by
  simp only [Fits, String.toList_append, List.mem_append, not_or]
  exact ⟨⟨first.1, second.1⟩, first.2, second.2⟩

theorem fits_repr (number : Nat) : Fits number.repr := by
  have digits : ∀ char ∈ number.repr.toList, char.isDigit = true := by
    intro char member
    rw [Nat.toList_repr] at member
    exact Nat.isDigit_of_mem_toDigits (by omega) (by omega) member
  constructor
  · intro quote
    cases digits _ quote
  · intro feed
    cases digits _ feed

end Text

namespace Style

variable {style : Style} {view : View} {narrative : Narrative}

private theorem mem_escapeChar {char origin : Char} (member : char ∈ escapeChar origin) : char ≠ '"' ∧ char ≠ '\n' := by
  unfold escapeChar at member
  split at member
  · have clean : ∀ other ∈ "#quot;".toList, other ≠ '"' ∧ other ≠ '\n' := by simp
    exact clean char member
  · cases List.mem_singleton.1 member
    decide
  · next quote feed =>
    cases List.mem_singleton.1 member
    exact ⟨quote, feed⟩

theorem fits_escape (label : String) : Text.Fits (escape label) := by
  have clean : ∀ char ∈ (escape label).toList, char ≠ '"' ∧ char ≠ '\n' := by
    intro char member
    rw [escape, String.toList_ofList] at member
    obtain ⟨origin, _, written⟩ := List.mem_flatMap.1 member
    exact mem_escapeChar written
  exact ⟨fun quote => (clean _ quote).1 rfl, fun feed => (clean _ feed).2 rfl⟩

theorem fits_boxText (occurrence : Occurrence) : Text.Fits (style.boxText occurrence view) := by
  cases view with
  | markdown =>
    have opening : Text.Fits " (" := by decide
    have closing : Text.Fits ")" := by decide
    exact (((fits_escape _).append opening).append (Text.fits_repr _)).append closing
  | interactive =>
    -- The ellipsis is put at the cut before the whole is escaped.
    exact fits_escape _

/-- A line that draws an edge, from the box of one occurrence to the box of another. -/
def Depicts (style : Style) (view : View) (narrative : Narrative) (edge : Edge) (line : String) : Prop :=
  ∃ source target, narrative.get? edge.source = some source ∧ narrative.get? edge.target = some target ∧
    (Text.Fits edge.source ∧ Text.Fits (style.boxText source view)) ∧
    (Text.Fits edge.target ∧ Text.Fits (style.boxText target view)) ∧
    line = edge.source ++ "[\"" ++ style.boxText source view ++ "\"] " ++
      (if style.dottedLoops && edge.loopBack then "-.->" else "-->") ++ " " ++
      (edge.target ++ "[\"" ++ style.boxText target view ++ "\"]")

theorem Depicts.oneLine {edge : Edge} {line : String} (depicts : style.Depicts view narrative edge line) :
    '\n' ∉ line.toList := by
  obtain ⟨source, target, _, _, ⟨leaves, before⟩, ⟨arrives, after⟩, rfl⟩ := depicts
  split <;> simp [leaves.2, before.2, arrives.2, after.2]

theorem binding_oneLine {occurrence : Occurrence} (plain : '\n' ∉ occurrence.id.toList) :
    '\n' ∉ (binding occurrence).toList := by
  have number := (Text.fits_repr occurrence.node.firstLine.toNat).2
  simp only [binding, String.toList_append, List.mem_append, not_or]
  exact ⟨⟨⟨⟨by decide, plain⟩, by decide⟩, number⟩, by decide⟩

/-- Where the ends of all edges are told, under ids that fit, the lines of the text are those it was put together from. -/
theorem lines_flowchart {edges : List Edge} (straight : '\n' ∉ style.direction.toList)
    (plain : ∀ occurrence ∈ narrative.occurrences, '\n' ∉ occurrence.id.toList)
    (drawn : ∀ edge ∈ edges, style.Depicts view narrative edge (style.edgeLine view narrative edge)) :
    Text.lines (style.flowchart narrative edges view) = style.lines narrative edges view := by
  have headed : '\n' ∉ style.header.toList := by
    rw [header, String.toList_append, List.mem_append]
    exact fun feed => feed.elim (by decide) straight
  have body : ∀ line ∈ edges.map (style.edgeLine view narrative), '\n' ∉ line.toList := by
    intro line member
    obtain ⟨edge, listed, rfl⟩ := List.mem_map.1 member
    exact (drawn edge listed).oneLine
  cases view with
  | markdown =>
    apply Text.lines_intercalate (by simp [lines])
    simp only [lines, List.forall_mem_append, List.forall_mem_cons, List.not_mem_nil, IsEmpty.forall_iff,
      implies_true, and_true]
    exact ⟨⟨⟨by decide, headed⟩, body⟩, by decide⟩
  | interactive =>
    apply Text.lines_intercalate (by simp [lines])
    simp only [lines, List.forall_mem_append, List.forall_mem_cons, List.not_mem_nil, IsEmpty.forall_iff,
      implies_true, and_true]
    refine ⟨⟨headed, body⟩, ?_⟩
    intro line member
    obtain ⟨occurrence, told, rfl⟩ := List.mem_map.1 member
    exact binding_oneLine (plain occurrence told)

end Style

theorem Narrative.get?_of_mem_ids {narrative : Narrative} {id : String} (member : id ∈ narrative.ids) :
    ∃ occurrence, narrative.get? id = some occurrence ∧ occurrence.id = id := by
  obtain ⟨last, found⟩ := Option.isSome_iff_exists.1 (position?_isSome.2 member)
  obtain ⟨⟨occurrence, located, named⟩, _⟩ := position?_some found
  exact ⟨occurrence, by simp [get?, found, located], named⟩

theorem Style.depicts_edgeLine {style : Style} {view : View} {narrative : Narrative} {edge : Edge}
    (plain : ∀ name ∈ narrative.ids, Text.Fits name) (leaves : edge.source ∈ narrative.ids)
    (arrives : edge.target ∈ narrative.ids) : style.Depicts view narrative edge (style.edgeLine view narrative edge) := by
  obtain ⟨source, origin, here⟩ := Narrative.get?_of_mem_ids leaves
  obtain ⟨target, goal, there⟩ := Narrative.get?_of_mem_ids arrives
  refine ⟨source, target, origin, goal, ⟨plain _ leaves, fits_boxText _⟩, ⟨plain _ arrives, fits_boxText _⟩, ?_⟩
  simp only [edgeLine, endpoint, arrow, origin, goal, here, there, String.append_assoc]
  rfl

namespace Graph

variable {graph : Graph} {narrative : Narrative}

/-- Edges lead from what is told to what is told. -/
theorem Consistent.edge_ends (consistent : graph.Consistent) {entry : Node} (first : graph.entry? = some entry)
    (told : graph.narrate = .ok narrative) {edge : Edge} (drawn : edge ∈ narrative.edges) :
    edge.source ∈ narrative.ids ∧ edge.target ∈ narrative.ids := by
  obtain ⟨occurrence, member, leaves, follows⟩ := Narrative.linked_of_edge drawn
  have paired := consistent.paired first told
  exact ⟨leaves ▸ List.mem_map_of_mem member, paired.mem_ids member (Or.inr follows)⟩

theorem Named.fits (named : graph.Named narrative.roster) (plain : ∀ id, graph.contains id = true → Text.Fits id)
    {name : String} (member : name ∈ narrative.ids) : Text.Fits name :=
  ⟨named.plain (fun id known => (plain id known).1) member, named.plain (fun id known => (plain id known).2) member⟩

/-- Whatever the labels of a checked graph, how they are cut and what is put at the cut: the text of its chart has one
line for each edge between the head and the foot, and in the interactive view one more for each occurrence. The line
of an edge has an arrow from the box of its source to the box of its target, and nothing that is written in a box ends
the box or the line. -/
theorem render_lines (built : graph.Built) (checked : graph.check = .ok ())
    (plain : ∀ node ∈ graph.nodes, Text.Fits node.id) (style : Style) (straight : '\n' ∉ style.direction.toList) :
    ∃ diagram markdown interactive, graph.diagram = .ok diagram ∧
      graph.render .markdown style = .ok markdown ∧ graph.render .interactive style = .ok interactive ∧
      (Text.lines markdown).length = 3 + diagram.edges.length ∧
      (Text.lines interactive).length = 1 + diagram.edges.length + diagram.narrative.occurrences.length ∧
      (∃ drawn, List.Forall₂ (style.Depicts .markdown diagram.narrative) diagram.edges drawn ∧
        Text.lines markdown = ["```mermaid", "flowchart " ++ style.direction] ++ drawn ++ ["```"]) ∧
      ∃ drawn, List.Forall₂ (style.Depicts .interactive diagram.narrative) diagram.edges drawn ∧
        Text.lines interactive = ["flowchart " ++ style.direction] ++ drawn ++
          diagram.narrative.occurrences.map fun occurrence =>
            "click " ++ occurrence.id ++ " call focusOn(" ++ occurrence.node.firstLine.toNat.repr ++ ")" := by
  have valid := check_eq_ok_iff.1 checked
  have consistent := built.consistent
  obtain ⟨narrative, _, diagram, _, told, _⟩ := valid.diagram consistent
  obtain ⟨entry, first, _⟩ := (valid.prune consistent).entry
  have names : ∀ name ∈ narrative.ids, Text.Fits name := by
    intro name member
    refine (named_of_narrate told).fits (fun id known => ?_) member
    obtain ⟨node, listed, rfl⟩ := List.mem_map.1 (contains_iff_mem_ids.1 (contains_of_prune known))
    exact plain node listed
  have drawn : ∀ view, ∀ edge ∈ narrative.edges, style.Depicts view narrative edge (style.edgeLine view narrative edge) := by
    intro view edge listed
    obtain ⟨leaves, arrives⟩ := consistent.prune.edge_ends first told listed
    exact Style.depicts_edgeLine names leaves arrives
  have lines : ∀ view, Text.lines (style.flowchart narrative narrative.edges view) = style.lines narrative narrative.edges view := by
    intro view
    refine Style.lines_flowchart straight (fun occurrence member => ?_) (drawn view)
    exact (names _ (List.mem_map_of_mem member)).2
  have depicted : ∀ view, List.Forall₂ (style.Depicts view narrative) narrative.edges
      (narrative.edges.map (style.edgeLine view narrative)) := by
    intro view
    rw [List.forall₂_map_right_iff, List.forall₂_same]
    exact drawn view
  refine ⟨⟨narrative, narrative.edges⟩, style.flowchart narrative narrative.edges .markdown,
    style.flowchart narrative narrative.edges .interactive, diagram, by rw [render, diagram]; rfl,
    by rw [render, diagram]; rfl, ?_, ?_, ⟨_, depicted .markdown, lines .markdown⟩, _, depicted .interactive, lines .interactive⟩
  · simp only [lines, Style.lines, List.length_append, List.length_map, List.length_cons, List.length_nil]
    omega
  · simp only [lines, Style.lines, List.length_append, List.length_map, List.length_cons, List.length_nil]

/-- Labels with a quote, with a line feed, and, on a loop, with what a quote is replaced by. -/
def quoting : GraphDoc := ⟨[
  ⟨{ id := "MAIN", label := "IF A = \"B\"", kind := .start, firstLine := 1, lastLine := 4 }, [], ["SAVE", "SEND"]⟩,
  ⟨{ id := "SAVE", label := "Ü\n\"Ö", kind := .normal, firstLine := 5, lastLine := 6 }, ["MAIN", "SEND"], []⟩,
  ⟨{ id := "SEND", label := "#quot;", kind := .loop, firstLine := 7, lastLine := 9 }, ["MAIN"], ["SAVE"]⟩]⟩

def quotingStyle : Style := { labelLimit := 3, ellipsis := "\"\n", dottedLoops := true }

def quotingChart : List String := [
  "flowchart TD",
  "MAIN[\"IF #quot; \"] --> SAVE_1[\"Ü #quot;#quot; \"]",
  "SAVE_1[\"Ü #quot;#quot; \"] --> SEND[\"#qu#quot; \"]",
  "SEND[\"#qu#quot; \"] --> SAVE_2[\"Ü #quot;#quot; \"]",
  "SAVE_2[\"Ü #quot;#quot; \"] -.-> SEND[\"#qu#quot; \"]",
  "click MAIN call focusOn(1)",
  "click SAVE_1 call focusOn(5)",
  "click SEND call focusOn(7)",
  "click SAVE_2 call focusOn(5)"]

theorem quoting_lines :
    ∃ graph diagram markdown interactive, quoting.toGraph = .ok graph ∧ graph.Built ∧ graph.check = .ok () ∧
      (∀ node ∈ graph.nodes, Text.Fits node.id) ∧ '\n' ∉ quotingStyle.direction.toList ∧ graph.diagram = .ok diagram ∧
      graph.render .markdown quotingStyle = .ok markdown ∧ graph.render .interactive quotingStyle = .ok interactive ∧
      diagram.narrative.ids = ["MAIN", "SAVE_1", "SEND", "SAVE_2"] ∧ (Text.lines markdown).length = 7 ∧
      (Text.lines interactive).length = 9 ∧ Text.lines interactive = quotingChart := by
  obtain ⟨graph, read⟩ : ∃ graph, quoting.toGraph = .ok graph := ⟨_, rfl⟩
  obtain ⟨built, checked⟩ := GraphDoc.built_toGraph read
  have nodes : quoting.toGraph.map Graph.nodes = .ok (quoting.nodes.map NodeDoc.node) := rfl
  have shown : (quoting.toGraph.bind Graph.diagram).map (fun diagram => (diagram.narrative.ids, diagram.edges.length,
      quotingStyle.lines diagram.narrative diagram.edges .interactive)) =
        .ok (["MAIN", "SAVE_1", "SEND", "SAVE_2"], 4, quotingChart) := by cbv
  simp only [read, Except.map, Except.bind, Except.ok.injEq] at nodes shown
  have plain : ∀ node ∈ graph.nodes, Text.Fits node.id := by
    rw [nodes]
    decide
  have straight : '\n' ∉ quotingStyle.direction.toList := by decide
  obtain ⟨diagram, markdown, interactive, drawn, fenced, bound, short, long, _⟩ :=
    render_lines built checked plain quotingStyle straight
  simp only [drawn, Except.ok.injEq, Prod.mk.injEq] at shown
  obtain ⟨ids, edges, chart⟩ := shown
  have told : diagram.narrative.occurrences.length = 4 := by simpa [Narrative.ids] using congrArg List.length ids
  refine ⟨graph, diagram, markdown, interactive, read, built, checked, plain, straight, drawn, fenced, bound, ids, ?_, ?_, ?_⟩
  · rw [short, edges]
  · rw [long, edges, told]
  · rw [render, drawn] at bound
    have text : quotingStyle.flowchart diagram.narrative diagram.edges .interactive = interactive := Except.ok.inj bound
    rw [← text, Style.flowchart, chart]
    exact Text.lines_intercalate (by decide) (by decide)

end Graph

end CallChart
