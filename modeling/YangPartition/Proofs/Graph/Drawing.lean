import YangPartition.Proofs.Graph.Edges

/-!
# Drawings

The identifier of a node joins the names of its path by underscores and writes an underscore for
each hyphen and dot in them. So two resources get one identifier when their names fall into the same
words at underscores, hyphens and dots. As long as this does not happen a drawing read line by line
states the graph: a node for each resource, and the edges between them with their kinds.
-/

namespace YangPartition

/-! ### Identifiers -/

/-- What parts the words of a name. -/
def isMark (c : Char) : Bool := c == '_' || c == '-' || c == '.'

/-- The words of a path: its names, taken apart at underscores, hyphens and dots. -/
def Path.drawnWords (p : Path) : List (List Char) :=
  p.names.flatMap fun name => name.toList.splitOnP isMark

namespace ResourceGraph

/-- The character that is drawn for one of a written path. -/
def drawnChar (c : Char) : Char := if c = '/' ∨ c = '-' ∨ c = '.' then '_' else c

/-- What is drawn parts at underscores where what is written parts at slashes and marks. -/
theorem splitOn_map_drawnChar (cs : List Char) :
    (cs.map drawnChar).splitOn '_' = cs.splitOnP fun c => isMark c || c == '/' := by
  rw [List.splitOn]
  induction cs with
  | nil => rfl
  | cons c cs ih =>
    rw [List.map_cons, List.splitOnP_cons_eq_if_modifyHead, List.splitOnP_cons_eq_if_modifyHead, ih]
    by_cases hmark : (isMark c || c == '/') = true
    · have hdrawn : drawnChar c = '_' := by
        simp only [isMark, Bool.or_eq_true, beq_iff_eq] at hmark
        rw [drawnChar]
        split
        · rfl
        · next hno =>
          simp only [not_or] at hno
          rcases hmark with ((h | h) | h) | h
          · exact h
          · exact absurd h hno.2.1
          · exact absurd h hno.2.2
          · exact absurd h hno.1
      rw [if_pos hmark, hdrawn, if_pos (beq_self_eq_true _)]
    · have hdrawn : drawnChar c = c ∧ c ≠ '_' := by
        simp only [isMark, Bool.or_eq_true, beq_iff_eq, not_or] at hmark
        exact ⟨if_neg fun h => h.elim hmark.2 fun h => h.elim hmark.1.1.2 hmark.1.2, hmark.1.1.1⟩
      rw [if_neg hmark, hdrawn.1, if_neg fun h => hdrawn.2 (beq_iff_eq.1 h)]

theorem splitOnP_congr {α : Type} {p q : α → Bool} {l : List α} (h : ∀ a ∈ l, p a = q a) :
    l.splitOnP p = l.splitOnP q := by
  induction l with
  | nil => rfl
  | cons a l ih =>
    rw [List.splitOnP_cons_eq_if_modifyHead, List.splitOnP_cons_eq_if_modifyHead,
      h a List.mem_cons_self, ih fun b hb => h b (List.mem_cons_of_mem _ hb)]

/-- Names without slashes, written one behind the other, part into their words. -/
theorem splitOnP_nameChars {name : String} {names : List String}
    (h : ∀ n ∈ name :: names, '/' ∉ n.toList) :
    (name.toList ++ Path.nameChars names).splitOnP (fun c => isMark c || c == '/') =
      (name :: names).flatMap fun n => n.toList.splitOnP isMark := by
  have hname : ∀ n ∈ name :: names,
      n.toList.splitOnP (fun c => isMark c || c == '/') = n.toList.splitOnP isMark := by
    intro n hn
    refine splitOnP_congr fun c hc => ?_
    rw [beq_false_of_ne fun (heq : c = '/') => h n hn (heq ▸ hc), Bool.or_false]
  induction names generalizing name with
  | nil =>
    rw [Path.nameChars, List.flatMap_nil, List.append_nil, hname name List.mem_cons_self]
    simp
  | cons next names ih =>
    rw [Path.nameChars, List.flatMap_cons, List.cons_append,
      List.splitOnP_append_cons _ _ (by rfl), hname name List.mem_cons_self, List.flatMap_cons]
    exact congrArg _ (ih (fun n hn => h n (List.mem_cons_of_mem _ hn))
      fun n hn => hname n (List.mem_cons_of_mem _ hn))

/-- The identifier of a written path parts into the words of the path. -/
theorem splitOn_drawnId {p : Path} (hw : p.Writable) (hne : p.names ≠ []) :
    (drawnId p.nameText).toList.splitOn '_' = p.drawnWords := by
  obtain ⟨name, names, hnames⟩ := List.exists_cons_of_ne_nil hne
  have hslash : ∀ n ∈ name :: names, '/' ∉ n.toList := by
    rw [← hnames]
    exact fun n hn hmem => (hw n hn).2 _ hmem (by simp [Path.reserved])
  have hdrop : p.nameText.toList.dropWhile (· == '/') = name.toList ++ Path.nameChars names := by
    rw [Path.toList_nameText, if_neg hne, hnames, Path.nameChars, List.flatMap_cons,
      List.cons_append, List.dropWhile_cons_of_pos (by rfl)]
    have hempty : name ≠ "" := (hw name (by rw [hnames]; exact List.mem_cons_self)).1
    cases hchars : name.toList with
    | nil => exact absurd (String.toList_eq_nil_iff.1 hchars) hempty
    | cons c cs =>
      refine List.dropWhile_cons_of_neg fun heq => hslash name List.mem_cons_self ?_
      rw [hchars, ← beq_iff_eq.1 heq]
      exact List.mem_cons_self
  rw [drawnId, String.toList_ofList, hdrop, Path.drawnWords, hnames]
  exact (splitOn_map_drawnChar _).trans (splitOnP_nameChars hslash)

/-- Two paths get one identifier when they have the same words. -/
theorem drawnId_eq_iff {p q : Path} (hp : p.Writable) (hpne : p.names ≠ []) (hq : q.Writable)
    (hqne : q.names ≠ []) :
    drawnId p.nameText = drawnId q.nameText ↔ p.drawnWords = q.drawnWords := by
  rw [← splitOn_drawnId hp hpne, ← splitOn_drawnId hq hqne]
  constructor
  · intro h
    rw [h]
  · intro h
    have hjoin : ∀ t : String, ['_'].intercalate (t.toList.splitOn '_') = t.toList :=
      fun t => List.intercalate_splitOn '_'
    rw [← String.toList_inj, ← hjoin, h, hjoin]

/-- Names without marks are words. -/
theorem drawnWords_of_unmarked {p : Path} (h : ∀ n ∈ p.names, ∀ c ∈ n.toList, isMark c = false) :
    p.drawnWords = p.names.map String.toList := by
  rw [Path.drawnWords, List.map_eq_flatMap]
  exact List.flatMap_congr fun n hn => List.splitOnP_eq_singleton (h n hn)

end ResourceGraph

/-! ### Quotable text -/

/-- What is not written inside quotes as it stands, or parts lines. -/
def unquotable : List Char := ['"', '\\', '\n']

/-- The text can be written inside quotes as it stands. -/
def IsQuotable (text : String) : Prop := ∀ c ∈ text.toList, c ∉ unquotable

theorem IsQuotable.drawnId {text : String} (h : IsQuotable text) :
    IsQuotable (ResourceGraph.drawnId text) := by
  intro c hc
  rw [ResourceGraph.drawnId, String.toList_ofList, List.mem_map] at hc
  obtain ⟨d, hd, rfl⟩ := hc
  split
  · decide
  · exact h d ((List.dropWhile_sublist _).mem hd)

theorem Path.isQuotable_nameText {p : Path} (h : ∀ n ∈ p.names, IsQuotable n) :
    IsQuotable p.nameText := by
  intro c hc
  rw [Path.toList_nameText] at hc
  split at hc
  · rw [List.mem_singleton.1 hc]
    decide
  · rcases Path.mem_nameChars hc with rfl | ⟨n, hn, hmem⟩
    · decide
    · exact h n hn c hmem

theorem Resource.isQuotable_name {r : Resource} (h : ∀ n ∈ r.path.names, IsQuotable n) :
    IsQuotable r.name := by
  rw [Resource.name]
  cases hlast : r.path.last? with
  | none =>
    show ∀ c ∈ "root".toList, c ∉ unquotable
    simp [unquotable]
  | some e => exact h e.name (List.mem_map_of_mem (List.mem_of_getLast? hlast))

/-! ### Reading a drawing -/

namespace ResourceGraph

/-- What a line of a drawing states. -/
inductive DrawnLine where
  /-- There is a node. -/
  | node (id : String)
  /-- There is an edge from one node to another. -/
  | edge (source target : String) (kind : EdgeKind)
  deriving DecidableEq, Repr

/-- The text up to the closing quote, and what follows. A quote behind a backslash is text. -/
def readQuoted : List Char → Option (String × List Char)
  | [] => none
  | '"' :: cs => some ("", cs)
  | '\\' :: '"' :: cs => (readQuoted cs).map fun (text, rest) => ("\"" ++ text, rest)
  | c :: cs => (readQuoted cs).map fun (text, rest) => (.singleton c ++ text, rest)

/-- The kind of an edge, from what follows its ends. -/
def readStyle? (cs : List Char) : Option EdgeKind :=
  if cs = ";".toList then some .hierarchy
  else if cs = " [style=dashed, label=\"leafref\"];".toList then some .reference
  else none

/-- What a line states, if it is that of a node or of an edge. -/
def readLine? (cs : List Char) : Option DrawnLine := do
  let (id, rest) ← readQuoted (← cs.dropPrefix? "  \"".toList)
  if " [label=\"".toList.isPrefixOf rest then some (.node id)
  else
    let (target, rest) ← readQuoted (← rest.dropPrefix? " -> \"".toList)
    (readStyle? rest).map (.edge id target)

/-- What the lines of a drawing state. -/
def readDrawing (text : String) : List DrawnLine :=
  (text.toList.splitOn '\n').filterMap readLine?

theorem dropPrefix?_append (p cs : List Char) : (p ++ cs).dropPrefix? p = some cs :=
  List.dropPrefix?_eq_some_iff.2 ⟨p, rfl, beq_self_eq_true p⟩

/-- What can be written as it stands is read as it stands. -/
theorem readQuoted_append {text : String} (h : IsQuotable text) (rest : List Char) :
    readQuoted (text.toList ++ '"' :: rest) = some (text, rest) := by
  have hchars : ∀ cs : List Char, (∀ c ∈ cs, c ∉ unquotable) →
      readQuoted (cs ++ '"' :: rest) = some (.ofList cs, rest) := by
    intro cs hcs
    induction cs with
    | nil => rfl
    | cons c cs ih =>
      have hc := hcs c List.mem_cons_self
      rw [List.cons_append, readQuoted, ih fun d hd => hcs d (List.mem_cons_of_mem _ hd)]
      · simp
      · rintro rfl
        exact hc (by decide)
      · rintro cs' rfl
        exact fun _ => hc (by decide)
  rw [hchars _ h, String.ofList_toList]

/-- The line of a node states the node. -/
theorem readLine?_node {id : String} (h : IsQuotable id) (rest : List Char) :
    readLine? ("  \"".toList ++ (id.toList ++ '"' :: (" [label=\"".toList ++ rest))) =
      some (.node id) := by
  have hlabel : " [label=\"".toList.isPrefixOf (" [label=\"".toList ++ rest) = true :=
    List.isPrefixOf_iff_prefix.2 (List.prefix_append _ _)
  rw [readLine?, dropPrefix?_append]
  simp only [Option.bind_eq_bind, Option.bind_some, readQuoted_append h, hlabel, if_true]

/-- How the line of an edge goes on behind its ends. -/
def styleText : EdgeKind → String
  | .hierarchy => ";"
  | .reference => " [style=dashed, label=\"leafref\"];"

/-- The line of an edge states the edge. -/
theorem readLine?_edge {source target : String} (hs : IsQuotable source)
    (ht : IsQuotable target) (kind : EdgeKind) :
    readLine? ("  \"".toList ++ (source.toList ++ '"' ::
      (" -> \"".toList ++ (target.toList ++ '"' :: (styleText kind).toList)))) =
      some (.edge source target kind) := by
  have hlabel : ∀ rest, " [label=\"".toList.isPrefixOf (" -> \"".toList ++ rest) = false :=
    fun rest => rfl
  have hstyle : readStyle? (styleText kind).toList = some kind := by cases kind <;> decide
  rw [readLine?, dropPrefix?_append]
  simp only [Option.bind_eq_bind, Option.bind_some, readQuoted_append hs, hlabel,
    Bool.false_eq_true, if_false, dropPrefix?_append, readQuoted_append ht, hstyle, Option.map_some]

/-- Lines are read one by one. -/
theorem filterMap_splitOn_lines (lines : List (List Char)) (h : ∀ l ∈ lines, '\n' ∉ l) :
    ((lines.flatMap (· ++ ['\n'])).splitOn '\n').filterMap readLine? =
      lines.filterMap readLine? := by
  induction lines with
  | nil => rfl
  | cons l lines ih =>
    have hl : ∀ c ∈ l, (c == '\n') = false := fun c hc =>
      beq_false_of_ne fun heq => h l List.mem_cons_self (heq ▸ hc)
    rw [List.flatMap_cons, List.append_assoc, List.singleton_append, List.splitOn,
      List.splitOnP_append_cons_of_forall_mem hl _ (by rfl), List.filterMap_cons,
      List.filterMap_cons, ← List.splitOn, ih fun l' hl' => h l' (List.mem_cons_of_mem _ hl')]

/-! ### The lines of a drawing -/

/-- The line of a node, without its end. -/
def nodeChars (n : GraphNode) : List Char :=
  "  \"".toList ++ ((drawnId n.pathText).toList ++ '"' :: (" [label=\"".toList ++
    (n.name.toList ++ ("\\n".toList ++ (n.pathText.toList ++ "\"];".toList)))))

/-- The line of an edge, without its end. -/
def edgeChars (g : ResourceGraph) (e : Edge) : List Char :=
  "  \"".toList ++ ((drawnId (g.pathTextOf e.source)).toList ++ '"' ::
    (" -> \"".toList ++ ((drawnId (g.pathTextOf e.target)).toList ++ '"' ::
      (styleText e.kind).toList)))

theorem toList_nodeLine (n : GraphNode) : (nodeLine n).toList = nodeChars n ++ ['\n'] := by
  simp [nodeLine, nodeChars]

theorem toList_edgeLine (g : ResourceGraph) (e : Edge) :
    (g.edgeLine e).toList = g.edgeChars e ++ ['\n'] := by
  obtain ⟨source, target, kind⟩ := e
  cases kind <;> simp [edgeLine, edgeChars, styleText]

/-- The first lines of a drawing. -/
def headLines : List (List Char) :=
  ["digraph Resources \x7b".toList, "  rankdir=LR;".toList,
    "  node [shape=box, style=rounded, fontname=\"Helvetica\", fontsize=10];".toList, []]

theorem toList_toDot (g : ResourceGraph) : g.toDot.toList =
    (headLines ++ (g.nodes.mergeSort fun a b => a.id ≤ b.id).map nodeChars ++ [[]] ++
      (g.edges.mergeSort drawnBefore).map g.edgeChars ++
      ["\x7d".toList]).flatMap (· ++ ['\n']) := by
  have hnodes : ∀ l : List GraphNode, (String.join (l.map nodeLine)).toList =
      (l.map nodeChars).flatMap (· ++ ['\n']) := by
    intro l
    simp only [String.toList_join, List.flatMap_map, toList_nodeLine]
  have hedges : ∀ l : List Edge, (String.join (l.map g.edgeLine)).toList =
      (l.map g.edgeChars).flatMap (· ++ ['\n']) := by
    intro l
    simp only [String.toList_join, List.flatMap_map, toList_edgeLine]
  have hhead : "digraph Resources \x7b\n  rankdir=LR;\n".toList ++
      "  node [shape=box, style=rounded, fontname=\"Helvetica\", fontsize=10];\n\n".toList =
      headLines.flatMap (· ++ ['\n']) := by simp [headLines]
  have hblank : "\n".toList = [[]].flatMap (· ++ ['\n']) := by simp
  have hlast : "\x7d\n".toList = ["\x7d".toList].flatMap (· ++ ['\n']) := by simp
  -- rewriting with the equation of `toDot` would evaluate its texts
  delta toDot
  simp only [String.toList_append, hnodes, hedges, List.flatMap_append, hhead, hblank, hlast]

theorem newline_not_mem_nodeChars {n : GraphNode} (hname : IsQuotable n.name)
    (hpath : IsQuotable n.pathText) : '\n' ∉ nodeChars n := by
  have hline : '\n' ∈ unquotable := by decide
  have hid : '\n' ∉ (drawnId n.pathText).toList := fun h => hpath.drawnId _ h hline
  have hname' : '\n' ∉ n.name.toList := fun h => hname _ h hline
  have hpath' : '\n' ∉ n.pathText.toList := fun h => hpath _ h hline
  simp [nodeChars, hid, hname', hpath']

theorem newline_not_mem_edgeChars {g : ResourceGraph} {e : Edge}
    (hsource : IsQuotable (g.pathTextOf e.source)) (htarget : IsQuotable (g.pathTextOf e.target)) :
    '\n' ∉ g.edgeChars e := by
  have hline : '\n' ∈ unquotable := by decide
  have hid : '\n' ∉ (drawnId (g.pathTextOf e.source)).toList := fun h => hsource.drawnId _ h hline
  have hid' : '\n' ∉ (drawnId (g.pathTextOf e.target)).toList := fun h => htarget.drawnId _ h hline
  have hstyle : '\n' ∉ (styleText e.kind).toList := by cases e.kind <;> decide
  simp [edgeChars, hid, hid', hstyle]

/-- What the line of an edge states, when resources have the given written paths. -/
def drawnEdge (textOf : Nat → String) (e : Edge) : DrawnLine :=
  .edge (drawnId (textOf e.source)) (drawnId (textOf e.target)) e.kind

/-- A drawing of quotable texts states its nodes and edges, line by line. -/
theorem readDrawing_toDot {g : ResourceGraph}
    (hnodes : ∀ n ∈ g.nodes, IsQuotable n.name ∧ IsQuotable n.pathText)
    (hedges : ∀ e ∈ g.edges,
      IsQuotable (g.pathTextOf e.source) ∧ IsQuotable (g.pathTextOf e.target)) :
    readDrawing g.toDot =
      (g.nodes.mergeSort fun a b => a.id ≤ b.id).map (fun n => .node (drawnId n.pathText)) ++
        (g.edges.mergeSort drawnBefore).map (drawnEdge g.pathTextOf) := by
  have hnodes' : ∀ n ∈ g.nodes.mergeSort fun a b => a.id ≤ b.id,
      IsQuotable n.name ∧ IsQuotable n.pathText := fun n hn =>
    hnodes n ((List.mergeSort_perm _ _).mem_iff.1 hn)
  have hedges' : ∀ e ∈ g.edges.mergeSort drawnBefore,
      IsQuotable (g.pathTextOf e.source) ∧ IsQuotable (g.pathTextOf e.target) := fun e he =>
    hedges e ((List.mergeSort_perm _ _).mem_iff.1 he)
  rw [readDrawing, toList_toDot, filterMap_splitOn_lines]
  · have hhead : headLines.filterMap readLine? = [] := by decide +kernel
    have hblank : [[]].filterMap readLine? = [] := by decide
    have hlast : ["\x7d".toList].filterMap readLine? = [] := by decide
    simp only [List.filterMap_append, hhead, hblank, hlast, List.nil_append, List.append_nil,
      List.filterMap_map]
    refine congrArg₂ (· ++ ·) ?_ ?_
    · rw [← List.filterMap_eq_map]
      exact List.filterMap_congr fun n hn => readLine?_node (hnodes' n hn).2.drawnId _
    · rw [← List.filterMap_eq_map]
      exact List.filterMap_congr fun e he =>
        readLine?_edge (hedges' e he).1.drawnId (hedges' e he).2.drawnId _
  · intro l hl
    simp only [List.mem_append, List.mem_map, List.mem_singleton] at hl
    rcases hl with (((hl | ⟨n, hn, rfl⟩) | rfl) | ⟨e, he, rfl⟩) | rfl
    · revert l
      decide +kernel
    · exact newline_not_mem_nodeChars (hnodes' n hn).1 (hnodes' n hn).2
    · exact List.not_mem_nil
    · exact newline_not_mem_edgeChars (hedges' e he).1 (hedges' e he).2
    · decide

end ResourceGraph

/-! ### Drawings of resources -/

/-- The identifier of a resource in a drawing. -/
def Resource.drawnId (x : Resource) : String := ResourceGraph.drawnId x.pathText

namespace ResourceSet

open ResourceGraph

variable {s t : ResourceSet}

theorem Instantiated.pathTextOf_eq (hs : s.Instantiated) (ht : t.blank = s) {x : Resource}
    (hx : x ∈ t.declared) : t.pathTextOf x.id = x.pathText := by
  rw [pathTextOf, hs.get?_of_mem ht (mem_toList_of_declared hx), Option.map_some, Option.getD_some]

/-- The graph has the written path of each declared resource. -/
theorem Instantiated.pathTextOf_ofSet (hs : s.Instantiated) (ht : t.blank = s) {x : Resource}
    (hx : x ∈ t.declared) : (ofSet t).pathTextOf x.id = x.pathText := by
  rw [ResourceGraph.pathTextOf, ofSet, List.find?_map]
  cases hfind : t.declared.find? ((fun n : GraphNode => n.id == x.id) ∘
      fun r => ⟨r.id, r.pathText, r.name⟩) with
  | none => exact absurd (beq_self_eq_true x.id) (by simpa using List.find?_eq_none.1 hfind x hx)
  | some y =>
    have hid : y.id = x.id := by simpa using List.find?_some hfind
    rw [hs.eq_of_id_eq ht (mem_toList_of_declared (List.mem_of_find?_eq_some hfind))
      (mem_toList_of_declared hx) hid]
    rfl

/-- Two declared resources have one identifier when their paths have the same words. -/
theorem Instantiated.drawnId_eq_iff (hs : s.Instantiated) (ht : t.blank = s) {x y : Resource}
    (hx : x ∈ t.declared) (hy : y ∈ t.declared) :
    x.drawnId = y.drawnId ↔ x.path.drawnWords = y.path.drawnWords := by
  have hwritable : ∀ r ∈ t.declared, r.path.Writable ∧ r.path.names ≠ [] := by
    intro r hr
    refine hs.writable r.blank ?_
    rw [← ht, declared_blank]
    exact List.mem_map_of_mem hr
  exact ResourceGraph.drawnId_eq_iff (hwritable x hx).1 (hwritable x hx).2 (hwritable y hy).1
    (hwritable y hy).2

/-- Where no name has a mark, no two declared resources have one identifier. -/
theorem Instantiated.nodup_drawnId (hs : s.Instantiated) (ht : t.blank = s)
    (h : ∀ x ∈ t.declared, ∀ n ∈ x.path.names, ∀ c ∈ n.toList, isMark c = false) :
    (t.declared.map (·.drawnId)).Nodup := by
  have hdistinct : t.declared.Pairwise fun x y => x.path.names ≠ y.path.names := by
    have := hs.distinct
    rwa [← ht, declared_blank, List.pairwise_map] at this
  refine List.pairwise_map.2 (hdistinct.imp_of_mem fun {x y} hx hy hne heq => hne ?_)
  rw [hs.drawnId_eq_iff ht hx hy, drawnWords_of_unmarked (h x hx),
    drawnWords_of_unmarked (h y hy)] at heq
  exact List.map_injective_iff.2 (fun _ _ => String.toList_inj.1) heq

/-- An edge leads between declared resources, whose identifiers are drawn. -/
theorem Instantiated.exists_of_mem_edges (hs : s.Instantiated) (ht : t.blank = s) {e : Edge}
    (he : e ∈ (ofSet t).edges) : ∃ x ∈ t.declared, ∃ y ∈ t.declared,
      x.id = e.source ∧ y.id = e.target ∧ (ofSet t).pathTextOf e.source = x.pathText ∧
      (ofSet t).pathTextOf e.target = y.pathText ∧
      drawnEdge t.pathTextOf e = .edge x.drawnId y.drawnId e.kind := by
  obtain ⟨hsource, htarget⟩ := ends_of_mem_edges he
  obtain ⟨x, hx, hxid⟩ := List.mem_map.1 hsource
  obtain ⟨y, hy, hyid⟩ := List.mem_map.1 htarget
  refine ⟨x, hx, y, hy, hxid, hyid, ?_, ?_, ?_⟩
  · rw [← hxid, hs.pathTextOf_ofSet ht hx]
  · rw [← hyid, hs.pathTextOf_ofSet ht hy]
  · rw [drawnEdge, ← hxid, ← hyid, hs.pathTextOf_eq ht hx, hs.pathTextOf_eq ht hy]
    rfl

/-- A drawing of quotable names states a node for each declared resource and the edges between
them. -/
theorem Instantiated.readDrawing_eq (hs : s.Instantiated) (ht : t.blank = s)
    (h : ∀ x ∈ t.declared, ∀ n ∈ x.path.names, IsQuotable n) :
    readDrawing (ofSet t).toDot = t.declared.map (fun x => .node x.drawnId) ++
      ((ofSet t).edges.mergeSort drawnBefore).map (drawnEdge t.pathTextOf) := by
  have hnodes : ∀ n ∈ (ofSet t).nodes, IsQuotable n.name ∧ IsQuotable n.pathText := by
    intro n hn
    obtain ⟨x, hx, rfl⟩ := List.mem_map.1 hn
    exact ⟨Resource.isQuotable_name (h x hx), Path.isQuotable_nameText (h x hx)⟩
  have hedges : ∀ e ∈ (ofSet t).edges, IsQuotable ((ofSet t).pathTextOf e.source) ∧
      IsQuotable ((ofSet t).pathTextOf e.target) := by
    intro e he
    obtain ⟨x, hx, y, hy, -, -, hsource, htarget, -⟩ := hs.exists_of_mem_edges ht he
    rw [hsource, htarget]
    exact ⟨Path.isQuotable_nameText (h x hx), Path.isQuotable_nameText (h y hy)⟩
  have hsorted : ((ofSet t).nodes.map (·.id)).Pairwise (· ≤ ·) := by
    rw [map_nodes]
    exact (hs.pairwise_declared ht).imp Nat.le_of_lt
  rw [readDrawing_toDot hnodes hedges,
    List.mergeSort_of_pairwise ((List.pairwise_map.1 hsorted).imp fun hle => decide_eq_true hle)]
  refine congrArg₂ (· ++ ·) ?_ ?_
  · rw [ofSet, List.map_map]
    rfl
  · refine List.map_congr_left fun e he => ?_
    obtain ⟨x, -, y, -, -, -, hsource, htarget, hdrawn⟩ :=
      hs.exists_of_mem_edges ht ((List.mergeSort_perm _ _).mem_iff.1 he)
    rw [hdrawn, drawnEdge, hsource, htarget]
    rfl

/-- Where no two declared resources have one identifier, an edge is stated only where it is. -/
theorem Instantiated.eq_of_drawnEdge_eq (hs : s.Instantiated) (ht : t.blank = s)
    (h : (t.declared.map (·.drawnId)).Nodup) {e : Edge} (he : e ∈ (ofSet t).edges) {x y : Resource}
    (hx : x ∈ t.declared) (hy : y ∈ t.declared) {kind : EdgeKind}
    (heq : drawnEdge t.pathTextOf e = .edge x.drawnId y.drawnId kind) : e = ⟨x.id, y.id, kind⟩ := by
  obtain ⟨x', hx', y', hy', hxid, hyid, -, -, hdrawn⟩ := hs.exists_of_mem_edges ht he
  rw [hdrawn, DrawnLine.edge.injEq] at heq
  obtain ⟨hsource, htarget, rfl⟩ := heq
  rw [← List.inj_on_of_nodup_map h hx' hx hsource, ← List.inj_on_of_nodup_map h hy' hy htarget,
    hxid, hyid]

/-- The drawing of the resources of a map, whatever references are recorded with them. Two declared
resources get one identifier exactly when their names have the same words between underscores,
hyphens and dots; none do when no name has such a mark. When the names hold no quote, backslash or
line break, the lines read back state one node for each declared resource, in their order, and the
edges of the graph, each once. If moreover no two resources have one identifier, no line is stated
twice, and an edge of a kind is stated between two resources exactly when the graph has it. -/
theorem drawing_exact {m : ResourceMap} {mode : Mode} (hs : ofMap m mode = .ok s)
    (ht : t.blank = s) :
    let g := ofSet t
    (∀ x ∈ t.declared, ∀ y ∈ t.declared,
      x.drawnId = y.drawnId ↔ x.path.drawnWords = y.path.drawnWords) ∧
    ((∀ x ∈ t.declared, ∀ n ∈ x.path.names, ∀ c ∈ n.toList, isMark c = false) →
      (t.declared.map (·.drawnId)).Nodup) ∧
    ((∀ x ∈ t.declared, ∀ n ∈ x.path.names, IsQuotable n) →
      (∃ edges : List Edge, edges.Perm g.edges ∧
        readDrawing g.toDot = t.declared.map (fun x => .node x.drawnId) ++
          edges.map (drawnEdge t.pathTextOf)) ∧
      ((t.declared.map (·.drawnId)).Nodup → (readDrawing g.toDot).Nodup ∧
        ∀ x ∈ t.declared, ∀ y ∈ t.declared, ∀ kind,
          .edge x.drawnId y.drawnId kind ∈ readDrawing g.toDot ↔
            ⟨x.id, y.id, kind⟩ ∈ g.edges)) := by
  intro g
  have hinst := (builds_ofMap hs).inst
  refine ⟨fun x hx y hy => hinst.drawnId_eq_iff ht hx hy, hinst.nodup_drawnId ht, ?_⟩
  intro hquotable
  have hread := hinst.readDrawing_eq ht hquotable
  have hperm : (g.edges.mergeSort drawnBefore).Perm g.edges := List.mergeSort_perm _ _
  refine ⟨⟨_, hperm, hread⟩, fun hnodup => ⟨?_, fun x hx y hy kind => ?_⟩⟩
  · rw [hread]
    refine List.nodup_append.2 ⟨?_, ?_, ?_⟩
    · have hmap := hnodup.map (f := DrawnLine.node) fun a b hab => DrawnLine.node.inj hab
      rwa [List.map_map] at hmap
    · refine (hperm.nodup_iff.2 (nodup_edges t)).map_on fun e he e' he' heq => ?_
      obtain ⟨x, hx, y, hy, hxid, hyid, -, -, hdrawn⟩ :=
        hinst.exists_of_mem_edges ht (hperm.mem_iff.1 he')
      rw [hinst.eq_of_drawnEdge_eq ht hnodup (hperm.mem_iff.1 he) hx hy (heq.trans hdrawn), hxid,
        hyid]
    · intro a ha b hb hab
      obtain ⟨x, -, rfl⟩ := List.mem_map.1 ha
      obtain ⟨e, -, rfl⟩ := List.mem_map.1 hb
      cases hab
  · rw [hread, List.mem_append, or_iff_right, List.mem_map]
    · constructor
      · rintro ⟨e, he, heq⟩
        rw [← hinst.eq_of_drawnEdge_eq ht hnodup (hperm.mem_iff.1 he) hx hy heq]
        exact hperm.mem_iff.1 he
      · refine fun he => ⟨_, hperm.mem_iff.2 he, ?_⟩
        rw [drawnEdge, hinst.pathTextOf_eq ht hx, hinst.pathTextOf_eq ht hy]
        rfl
    · rw [List.mem_map]
      rintro ⟨z, -, heq⟩
      cases heq

/-- A resource above another that refers to a third one. -/
theorem drawing_exact_nested :
    let m : ResourceMap := { declared := [("/a", { hierarchy? := some [("b", {})] }), ("/c", {})] }
    let refer (r : Resource) : Resource :=
      { r with outerReferences := [{ leaf := .root, target := .root, scope := .outside (some 3) }] }
    ∃ s, ofMap m .declared = .ok s ∧
      let t := s.modify 1 refer
      t.blank = s ∧
      (∀ x ∈ t.declared, ∀ n ∈ x.path.names, ∀ c ∈ n.toList, isMark c = false) ∧
      (∀ x ∈ t.declared, ∀ n ∈ x.path.names, IsQuotable n) ∧
      (t.declared.map (·.drawnId)).Nodup ∧ (readDrawing (ofSet t).toDot).Nodup ∧
      ∃ edges : List Edge, edges.Perm [⟨1, 2, .hierarchy⟩, ⟨1, 3, .reference⟩] ∧
        readDrawing (ofSet t).toDot = [.node "a", .node "a_b", .node "c"] ++
          edges.map (drawnEdge t.pathTextOf) := by
  intro m refer
  obtain ⟨s, hs, htest⟩ := exists_ok_of_any
    (p := fun s : ResourceSet =>
      let t := s.modify 1 refer
      t.declared.map (·.path.names) == [["a"], ["a", "b"], ["c"]] &&
        t.declared.map (fun x => DrawnLine.node x.drawnId) ==
          [.node "a", .node "a_b", .node "c"] &&
        (ofSet t).edges == [⟨1, 2, .hierarchy⟩, ⟨1, 3, .reference⟩])
    (show (ofMap m .declared).toOption.any _ = true by decide +kernel)
  simp only [Bool.and_eq_true, beq_iff_eq] at htest
  obtain ⟨⟨hnames, hnodes⟩, hedges⟩ := htest
  refine ⟨s, hs, ?_⟩
  intro t
  have ht : t.blank = s :=
    (blank_modify (f := refer) fun r _ => rfl).trans (instantiated_ofMap hs).blank
  have hplain : ∀ x ∈ t.declared, ∀ n ∈ x.path.names, n ∈ ["a", "b", "c"] := by
    intro x hx n hn
    have hmem : x.path.names ∈ t.declared.map (·.path.names) := List.mem_map_of_mem hx
    rw [hnames] at hmem
    exact (show ∀ names ∈ [["a"], ["a", "b"], ["c"]], ∀ n ∈ names, n ∈ ["a", "b", "c"] by decide)
      _ hmem n hn
  have hunmarked : ∀ x ∈ t.declared, ∀ n ∈ x.path.names, ∀ c ∈ n.toList, isMark c = false :=
    fun x hx n hn => (show ∀ n ∈ ["a", "b", "c"], ∀ c ∈ n.toList, isMark c = false by
      simp [isMark]) n (hplain x hx n hn)
  have hquotable : ∀ x ∈ t.declared, ∀ n ∈ x.path.names, IsQuotable n :=
    fun x hx n hn => (show ∀ n ∈ ["a", "b", "c"], ∀ c ∈ n.toList, c ∉ unquotable by
      simp [unquotable]) n (hplain x hx n hn)
  obtain ⟨-, hids, hdrawing⟩ := drawing_exact hs ht
  obtain ⟨⟨edges, hperm, hread⟩, hexact⟩ := hdrawing hquotable
  exact ⟨ht, hunmarked, hquotable, hids hunmarked, (hexact (hids hunmarked)).1,
    edges, hedges ▸ hperm, hnodes ▸ hread⟩

/-- Two resources whose paths have the same words are drawn as one node, so an edge to one of them
is drawn as an edge to the other. -/
theorem drawnId_of_two_resources :
    let m : ResourceMap :=
      { declared := [("/a", { hierarchy? := some [("b", {})] }), ("/a-b", {})] }
    ∃ s, ofMap m .declared = .ok s ∧ ∃ x ∈ s.declared, ∃ y ∈ s.declared, ∃ z ∈ s.declared,
      x.path.names = ["a", "b"] ∧ y.path.names = ["a-b"] ∧ x.drawnId = y.drawnId ∧
      ⟨z.id, x.id, .hierarchy⟩ ∈ (ofSet s).edges ∧ ⟨z.id, y.id, .hierarchy⟩ ∉ (ofSet s).edges ∧
      (ofSet s).edgeLine ⟨z.id, x.id, .hierarchy⟩ =
        (ofSet s).edgeLine ⟨z.id, y.id, .hierarchy⟩ := by
  intro m
  obtain ⟨s, hs, htest⟩ := exists_ok_of_any
    (p := fun s : ResourceSet => decide (∃ x ∈ s.declared, ∃ y ∈ s.declared, ∃ z ∈ s.declared,
      x.path.names = ["a", "b"] ∧ y.path.names = ["a-b"] ∧ x.drawnId = y.drawnId ∧
      ⟨z.id, x.id, .hierarchy⟩ ∈ (ofSet s).edges ∧ ⟨z.id, y.id, .hierarchy⟩ ∉ (ofSet s).edges ∧
      (ofSet s).edgeLine ⟨z.id, x.id, .hierarchy⟩ =
        (ofSet s).edgeLine ⟨z.id, y.id, .hierarchy⟩))
    (show (ofMap m .declared).toOption.any _ = true by decide +kernel)
  exact ⟨s, hs, of_decide_eq_true htest⟩

end ResourceSet

end YangPartition
