import DamHopper.Lib.AssocMap
import Mathlib.Algebra.Order.BigOperators.Group.List
import Mathlib.Algebra.Order.Group.Nat

/-!
# Dfs — depth-first search with an explicit stack

`Topological` says of a list that everything in it comes after what it needs. A `Search`
walks a graph whose nodes have to be loaded, with three colours (unseen, visiting,
visited) and a stack of nodes with the successors still to be looked at; a node leaves
the stack once all its successors have been visited. `search_ok` and `search_error` say
what comes out: either every reachable node, once and after its successors, or an error
that some reachable node or cycle accounts for.
-/

namespace DamHopper

open AssocMap List

/-! ## Lists in which everything comes after what it needs -/

section

variable {α ν : Type _} (key : ν → α) (needs : ν → List α)

/-- Everything in the list occurs once and after all that it needs. -/
inductive Topological : List ν → Prop
  | nil : Topological []
  | snoc {l : List ν} {n : ν} (h : Topological l) (hnew : key n ∉ l.map key)
      (hneeds : ∀ y ∈ needs n, y ∈ l.map key) : Topological (l ++ [n])

variable {key needs}

namespace Topological

variable {l : List ν}

theorem nodup (h : Topological key needs l) : (l.map key).Nodup := by
  induction h with
  | nil => exact nodup_nil
  | snoc h hnew hneeds ih =>
    rw [map_append]
    exact ih.append (nodup_singleton _) (disjoint_singleton.mpr hnew)

variable {n : ν} {front back : List ν}

theorem map {μ : Type _} {key' : μ → α} {needs' : μ → List α} (h : Topological key needs l)
    (g : ν → μ) (hkey : ∀ n ∈ l, key' (g n) = key n) (hneeds : ∀ n ∈ l, needs' (g n) = needs n) :
    Topological key' needs' (l.map g) := by
  induction h with
  | nil => exact .nil
  | @snoc l n h hnew hneeded ih =>
    rw [forall_mem_append, forall_mem_singleton] at hkey hneeds
    have hkeys : (l.map g).map key' = l.map key := by
      rw [map_map]
      exact map_congr_left hkey.1
    rw [map_append]
    refine .snoc (ih hkey.1 hneeds.1) ?_ ?_
    · rwa [hkeys, hkey.2]
    · rwa [hkeys, hneeds.2]

/-- What an element needs stands before it. -/
theorem needs_before (h : Topological key needs l) (hl : l = front ++ n :: back) :
    ∀ y ∈ needs n, y ∈ front.map key := by
  induction h generalizing back with
  | nil => simp at hl
  | @snoc l m h hnew hneeds ih =>
    rcases eq_nil_or_concat back with rfl | ⟨back, b, rfl⟩
    · obtain ⟨rfl, ⟨⟩⟩ := append_inj' hl rfl
      exact hneeds
    · rw [concat_eq_append, ← cons_append, ← append_assoc] at hl
      exact ih (append_inj' hl rfl).1

theorem closed (h : Topological key needs l) (hn : n ∈ l) : ∀ y ∈ needs n, y ∈ l.map key := by
  obtain ⟨front, back, rfl⟩ := append_of_mem hn
  intro y hy
  rw [map_append]
  exact mem_append_left _ (h.needs_before rfl y hy)

/-- An element is not needed by itself or by anything before it. -/
theorem not_needed (h : Topological key needs l) (hl : l = front ++ n :: back) :
    ∀ y ∈ needs n, y ∉ (n :: back).map key := by
  intro y hy hmem
  have hnodup := h.nodup
  rw [hl, map_append, nodup_append] at hnodup
  exact hnodup.2.2 y (h.needs_before hl y hy) y hmem rfl

theorem not_needed_of_sublist {l' : List ν} (h : Topological key needs l) (hsub : l'.Sublist l)
    (hl' : l' = front ++ n :: back) :
    ∀ y ∈ needs n, y ∉ (n :: back).map key := by
  rw [hl', append_sublist_iff] at hsub
  obtain ⟨front', rest, rfl, _, hrest⟩ := hsub
  obtain ⟨middle, back', rfl, hn, hback⟩ := cons_sublist_iff.mp hrest
  obtain ⟨before, after, rfl⟩ := append_of_mem hn
  intro y hy hmem
  have hsplit : front' ++ (before ++ n :: after ++ back') =
      (front' ++ before) ++ n :: (after ++ back') := by
    simp only [append_assoc, cons_append]
  refine h.not_needed hsplit y hy (Sublist.subset ?_ hmem)
  exact ((hback.trans (sublist_append_right after back')).cons_cons n).map key

section

variable {r : α → α → Prop} (h : Topological key needs l)
  (hr : ∀ n ∈ l, ∀ y, r (key n) y → y ∈ needs n)
include h hr

/-- A list that is closed under what is needed contains all that is reachable. -/
theorem reach_mem {x y : α} (hx : x ∈ l.map key) (hxy : Relation.ReflTransGen r x y) :
    y ∈ l.map key := by
  induction hxy with
  | refl => exact hx
  | tail _ hstep ih =>
    obtain ⟨n, hn, rfl⟩ := mem_map.mp ih
    exact h.closed hn _ (hr n hn _ hstep)

/-- Nothing in the list needs itself, however indirectly. -/
theorem acyclic {x : α} (hx : x ∈ l.map key) : ¬ Relation.TransGen r x x := by
  induction h with
  | nil => cases hx
  | @snoc l n h hnew hneeds ih =>
    rw [forall_mem_append, forall_mem_singleton] at hr
    rw [map_append, mem_append, map_singleton, mem_singleton] at hx
    rcases hx with hx | rfl
    · exact ih hr.1 hx
    -- the first step leads into `l`, which no path leaves
    intro hcycle
    obtain ⟨y, hfirst, hrest⟩ := Relation.TransGen.head'_iff.mp hcycle
    exact hnew (h.reach_mem hr.1 (hneeds y (hr.2 y hfirst)) hrest)

end

end Topological

variable [DecidableEq α]

/-- What depends on the anchor, found in one pass. -/
def dependents (key : ν → α) (needs : ν → List α) (l : List ν) (anchor : α) : List α :=
  l.foldl (fun found n =>
    if key n = anchor ∨ (needs n).any (found.contains ·) then found ++ [key n] else found) []

/-- **One pass finds every dependent**: what comes to the anchor by any number of steps. -/
theorem Topological.mem_dependents {r : α → α → Prop} {l : List ν} (h : Topological key needs l)
    (hr : ∀ n ∈ l, ∀ y, r (key n) y ↔ y ∈ needs n) {anchor x : α} :
    x ∈ dependents key needs l anchor ↔ x ∈ l.map key ∧ Relation.ReflTransGen r x anchor := by
  induction h generalizing x with
  | nil => simp [dependents]
  | @snoc l n h hnew hneeds ih =>
    rw [forall_mem_append, forall_mem_singleton] at hr
    have ih := fun x => @ih hr.1 x
    have hcond : (key n = anchor ∨
        (needs n).any ((dependents key needs l anchor).contains ·) = true) ↔
        Relation.ReflTransGen r (key n) anchor := by
      rw [Relation.ReflTransGen.cases_head_iff, any_eq_true]
      refine or_congr Iff.rfl (exists_congr fun y => ?_)
      rw [hr.2, contains_iff_mem, ih y]
      exact ⟨fun ⟨hy, _, hreach⟩ => ⟨hy, hreach⟩, fun ⟨hy, hreach⟩ => ⟨hy, hneeds y hy, hreach⟩⟩
    have hfold : dependents key needs (l ++ [n]) anchor =
        if key n = anchor ∨ (needs n).any ((dependents key needs l anchor).contains ·)
        then dependents key needs l anchor ++ [key n] else dependents key needs l anchor := by
      simp [dependents, foldl_append]
    rw [hfold, map_append, mem_append, map_singleton, mem_singleton,
      or_and_right, ← ih x]
    split_ifs with hdepends
    · rw [mem_append, mem_singleton]
      exact or_congr Iff.rfl ⟨fun heq => ⟨heq, heq ▸ hcond.mp hdepends⟩, fun hx => hx.1⟩
    · refine ⟨.inl, fun hx => hx.resolve_right ?_⟩
      rintro ⟨rfl, hreach⟩
      exact hdepends (hcond.mpr hreach)

end

namespace Dfs

/-! ## The graph -/

section

variable {α β ε : Type _} (load : α → Except ε β) (succs : β → List α)

/-- The successors of a node, none if it does not load. -/
def succsOf (x : α) : List α :=
  match load x with
  | .ok node => succs node
  | .error _ => []

/-- There is an edge from a node that loads to each of its successors. -/
def Edge (x y : α) : Prop := y ∈ succsOf load succs x

variable {load succs}
  {x child : α} {done : List α} {below : List (α × List α)}

theorem succsOf_of_load {node : β} (h : load x = .ok node) : succsOf load succs x = succs node := by
  rw [succsOf, h]

theorem edge_of_succs {seen rest : List α} (h : succsOf load succs x = seen ++ child :: rest) :
    Edge load succs x child := by
  rw [Edge, h]
  exact mem_append_right _ mem_cons_self

variable (load succs) in
/-- The stack under a node, which is one of the successors of the topmost: all that were
looked at before it are finished, and the bottom is the tip. -/
def Below (tip : α) (done : List α) : α → List (α × List α) → Prop
  | child, [] => child = tip
  | child, (x, rest) :: below =>
    (∃ seen, succsOf load succs x = seen ++ child :: rest ∧ ∀ y ∈ seen, y ∈ done) ∧
      Below tip done x below

variable (load succs) in
/-- The whole stack: the successors of the top that were looked at are finished. -/
def Stacked (tip : α) (done : List α) : List (α × List α) → Prop
  | [] => True
  | (x, rest) :: below =>
    (∃ seen, succsOf load succs x = seen ++ rest ∧ ∀ y ∈ seen, y ∈ done) ∧
      Below load succs tip done x below

variable {tip : α}

theorem Below.mono {done' : List α} (hdone : ∀ y ∈ done, y ∈ done')
    (h : Below load succs tip done child below) :
    Below load succs tip done' child below := by
  induction below generalizing child with
  | nil => exact h
  | cons frame below ih =>
    obtain ⟨⟨seen, hsuccs, hseen⟩, hbelow⟩ := h
    exact ⟨⟨seen, hsuccs, fun y hy => hdone y (hseen y hy)⟩, ih hbelow⟩

/-- The stack is a path from the tip. -/
theorem Below.reach (h : Below load succs tip done child below) :
    Relation.ReflTransGen (Edge load succs) tip child := by
  induction below generalizing child with
  | nil => rw [show child = tip from h]
  | cons frame below ih =>
    obtain ⟨⟨seen, hsuccs, _⟩, hbelow⟩ := h
    exact (ih hbelow).tail (edge_of_succs hsuccs)

/-- Whatever is on the stack leads to what is above it. -/
theorem Below.path (h : Below load succs tip done child below) (hx : x ∈ below.map Prod.fst) :
    Relation.ReflTransGen (Edge load succs) x child := by
  induction below generalizing child with
  | nil => cases hx
  | cons frame below ih =>
    obtain ⟨⟨seen, hsuccs, _⟩, hbelow⟩ := h
    rcases mem_cons.mp hx with rfl | hx
    · exact .single (edge_of_succs hsuccs)
    · exact (ih hbelow hx).tail (edge_of_succs hsuccs)

end

/-! ## The search -/

inductive Color where
  | visiting
  | visited
  deriving Repr, DecidableEq

/-- A search under way: the colours, the nodes loaded, the nodes finished in order, and
the stack, top first, with the successors not yet looked at. -/
structure Search (α β : Type _) [DecidableEq α] where
  state : AssocMap α Color
  nodes : AssocMap α β
  postOrder : List α
  stack : List (α × List α)

section

variable {α β ε : Type _} [DecidableEq α] (load : α → Except ε β) (succs : β → List α)
  (cycle : α → ε)

namespace Search

def start (tip : α) (node : β) : Search α β where
  state := empty.insert tip .visiting
  nodes := empty.insert tip node
  postOrder := []
  stack := [(tip, succs node)]

def step (s : Search α β) : Except ε (Search α β) :=
  match s.stack with
  | [] => .ok s
  | (x, []) :: below =>
    .ok { s with
      state := s.state.insert x .visited
      postOrder := s.postOrder ++ [x]
      stack := below }
  | (x, y :: rest) :: below =>
    match s.state.get? y with
    | some .visiting => .error (cycle y)
    | some .visited => .ok { s with stack := (x, rest) :: below }
    | none =>
      match load y with
      | .error e => .error e
      | .ok node => .ok {
          state := s.state.insert y .visiting
          nodes := s.nodes.insert y node
          postOrder := s.postOrder
          stack := (y, succs node) :: (x, rest) :: below }

def loop : Nat → Search α β → Except ε (Search α β)
  | 0, s => .ok s
  | fuel + 1, s =>
    if s.stack.isEmpty then .ok s
    else match s.step load succs cycle with
      | .error e => .error e
      | .ok s' => loop fuel s'

end Search

/-- The nodes in the given order, each taken out as it is found. -/
def drain : List α → AssocMap α β → List (α × β)
  | [], _ => []
  | x :: rest, nodes =>
    match nodes.get? x with
    | some node => (x, node) :: drain rest (nodes.erase x)
    | none => drain rest nodes

/-- Enough steps for a graph in which only these nodes load. -/
def bound (univ : List α) : Nat := (univ.map fun x => (succsOf load succs x).length + 2).sum

def search (univ : List α) (tip : α) (node : β) : Except ε (List (α × β)) :=
  match Search.loop load succs cycle (bound load succs univ) (.start succs tip node) with
  | .error e => .error e
  | .ok s => .ok (drain s.postOrder s.nodes)

variable {load succs cycle} {node : β}

/-! ## The invariant -/

variable (load succs) in
structure Inv (tip : α) (s : Search α β) : Prop where
  loaded : ∀ x node, s.nodes.get? x = some node → load x = .ok node
  colored : ∀ x, (s.state.get? x).isSome = (s.nodes.get? x).isSome
  visiting : ∀ x, s.state.get? x = some .visiting ↔ x ∈ s.stack.map Prod.fst
  visited : ∀ x, s.state.get? x = some .visited ↔ x ∈ s.postOrder
  stackNodup : (s.stack.map Prod.fst).Nodup
  sorted : Topological id (succsOf load succs) s.postOrder
  stacked : Stacked load succs tip s.postOrder s.stack
  reached : ∀ x ∈ s.postOrder, Relation.ReflTransGen (Edge load succs) tip x
  tip : tip ∈ s.stack.map Prod.fst ∨ tip ∈ s.postOrder

theorem inv_start {tip : α} (h : load tip = .ok node) :
    Inv load succs tip (.start succs tip node) where
  loaded := forall_insert (by rintro _ _ ⟨⟩) h
  colored x := by
    simp only [Search.start, get?_insert]
    split <;> rfl
  visiting x := by
    simp only [Search.start, get?_insert]
    split_ifs with heq <;> simp [heq]
  visited x := by
    simp only [Search.start, get?_insert]
    split <;> simp
  stackNodup := nodup_singleton _
  sorted := .nil
  stacked := ⟨⟨[], succsOf_of_load h, nofun⟩, rfl⟩
  reached := nofun
  tip := .inl mem_cons_self

variable (load succs) in
/-- What one step does. -/
inductive Stepped (s : Search α β) : Search α β → Prop
  | finished (x : α) (below : List (α × List α)) (hstack : s.stack = (x, []) :: below) :
      Stepped s { s with
        state := s.state.insert x .visited
        postOrder := s.postOrder ++ [x]
        stack := below }
  | passed (x y : α) (rest : List α) (below : List (α × List α))
      (hstack : s.stack = (x, y :: rest) :: below) (hy : s.state.get? y = some .visited) :
      Stepped s { s with stack := (x, rest) :: below }
  | pushed (x y : α) (rest : List α) (below : List (α × List α)) (node : β)
      (hstack : s.stack = (x, y :: rest) :: below) (hy : s.state.get? y = none)
      (hload : load y = .ok node) :
      Stepped s {
        state := s.state.insert y .visiting
        nodes := s.nodes.insert y node
        postOrder := s.postOrder
        stack := (y, succs node) :: (x, rest) :: below }

variable (cycle) in
/-- A step that goes wrong met a node that does not load or is on the stack. -/
theorem step_cases (s : Search α β) (hstack : s.stack ≠ []) :
    (∃ s', s.step load succs cycle = .ok s' ∧ Stepped load succs s s') ∨
      ∃ e x y rest below, s.step load succs cycle = .error e ∧ s.stack = (x, y :: rest) :: below ∧
        (load y = .error e ∨ e = cycle y ∧ s.state.get? y = some .visiting) := by
  unfold Search.step
  split
  next hnil => exact absurd hnil hstack
  next x below htop => exact .inl ⟨_, rfl, .finished x below htop⟩
  rename_i x y rest below htop
  split
  next hy => exact .inr ⟨_, x, y, rest, below, rfl, htop, .inr ⟨rfl, hy⟩⟩
  next hy => exact .inl ⟨_, rfl, .passed x y rest below htop hy⟩
  rename_i hy
  split
  next e hload => exact .inr ⟨e, x, y, rest, below, rfl, htop, .inl hload⟩
  next node hload => exact .inl ⟨_, rfl, .pushed x y rest below node htop hy hload⟩

namespace Inv

variable {tip : α} {s s' : Search α β}
  {x y : α} {below : List (α × List α)} {rest : List α}

section

variable (h : Inv load succs tip s)
include h

/-- What the top of the stack is through with, and what is below it. -/
theorem top (hstack : s.stack = (x, rest) :: below) :
    (∃ seen, succsOf load succs x = seen ++ rest ∧ ∀ y ∈ seen, y ∈ s.postOrder) ∧
      Below load succs tip s.postOrder x below := by
  have hstacked := h.stacked
  rwa [hstack] at hstacked

theorem finished (hstack : s.stack = (x, []) :: below) : Inv load succs tip { s with
      state := s.state.insert x .visited
      postOrder := s.postOrder ++ [x]
      stack := below } := by
  have hx : s.state.get? x = some .visiting := (h.visiting x).mpr (by rw [hstack]; simp)
  have hnodup := h.stackNodup
  rw [hstack, map_cons, nodup_cons] at hnodup
  obtain ⟨⟨seen, hsuccs, hseen⟩, hbelow⟩ := h.top hstack
  rw [append_nil] at hsuccs
  have hnew : x ∉ s.postOrder := fun hmem => by
    rw [← h.visited, hx] at hmem
    cases hmem
  refine ⟨h.loaded, ?_, ?_, ?_, hnodup.2, ?_, ?_, ?_, ?_⟩
  · intro y
    rw [get?_insert]
    split_ifs with heq
    · rw [heq, ← h.colored x, hx]
      rfl
    · exact h.colored y
  · intro y
    rw [get?_insert]
    split_ifs with heq
    · rw [heq]
      exact iff_of_false (by rintro ⟨⟩) hnodup.1
    · rw [h.visiting y, hstack, map_cons, mem_cons]
      exact or_iff_right heq
  · intro y
    rw [get?_insert, mem_append, mem_singleton]
    split_ifs with heq
    · exact iff_of_true rfl (.inr heq)
    · rw [h.visited y]
      exact (or_iff_left heq).symm
  · refine .snoc h.sorted (by simpa using hnew) ?_
    intro y hy
    rw [map_id]
    exact hseen y (hsuccs ▸ hy)
  · -- the node below now counts `x` among the successors it is through with
    cases below with
    | nil => trivial
    | cons frame below =>
      obtain ⟨⟨seen', hsuccs', hseen'⟩, hbelow'⟩ := hbelow
      refine ⟨⟨seen' ++ [x], ?_, ?_⟩, hbelow'.mono fun y hy => mem_append_left _ hy⟩
      · simp [hsuccs', append_assoc]
      · intro y hy
        rw [mem_append] at hy ⊢
        exact hy.imp (hseen' y) id
  · exact forall_mem_append.mpr ⟨h.reached, forall_mem_singleton.mpr hbelow.reach⟩
  · rcases h.tip with htip | htip
    · rw [hstack, map_cons, mem_cons] at htip
      rcases htip with rfl | htip
      · exact .inr (by simp)
      · exact .inl htip
    · exact .inr (mem_append_left _ htip)

theorem passed (hstack : s.stack = (x, y :: rest) :: below) (hy : s.state.get? y = some .visited) :
    Inv load succs tip { s with stack := (x, rest) :: below } := by
  have hids : s.stack.map Prod.fst = ((x, rest) :: below).map Prod.fst := by rw [hstack]; rfl
  obtain ⟨⟨seen, hsuccs, hseen⟩, hbelow⟩ := h.top hstack
  refine ⟨h.loaded, h.colored, ?_, h.visited, ?_, h.sorted, ⟨⟨seen ++ [y], ?_, ?_⟩, hbelow⟩,
    h.reached, ?_⟩
  · exact fun z => hids ▸ h.visiting z
  · exact hids ▸ h.stackNodup
  · simp [hsuccs, append_assoc]
  · exact forall_mem_append.mpr ⟨hseen, forall_mem_singleton.mpr ((h.visited y).mp hy)⟩
  · exact hids ▸ h.tip

theorem pushed (hstack : s.stack = (x, y :: rest) :: below)
    (hy : s.state.get? y = none) (hload : load y = .ok node) :
    Inv load succs tip {
      state := s.state.insert y .visiting
      nodes := s.nodes.insert y node
      postOrder := s.postOrder
      stack := (y, succs node) :: (x, rest) :: below } := by
  have hids : s.stack.map Prod.fst = ((x, rest) :: below).map Prod.fst := by rw [hstack]; rfl
  obtain ⟨⟨seen, hsuccs, hseen⟩, hbelow⟩ := h.top hstack
  refine ⟨forall_insert h.loaded hload, ?_, ?_, ?_, ?_, h.sorted, ?_, h.reached, ?_⟩
  · intro z
    rw [get?_insert, get?_insert]
    split
    · rfl
    · exact h.colored z
  · intro z
    rw [get?_insert, map_cons, mem_cons]
    split_ifs with heq
    · exact iff_of_true rfl (.inl heq)
    · rw [h.visiting z, hids]
      exact (or_iff_right heq).symm
  · intro z
    rw [get?_insert]
    split_ifs with heq
    · refine iff_of_false (by rintro ⟨⟩) fun hz => ?_
      rw [← h.visited, heq, hy] at hz
      cases hz
    · exact h.visited z
  · rw [map_cons, nodup_cons, ← hids]
    refine ⟨fun hmem => ?_, h.stackNodup⟩
    rw [← h.visiting, hy] at hmem
    cases hmem
  · exact ⟨⟨[], succsOf_of_load hload, forall_mem_nil _⟩, ⟨seen, hsuccs, hseen⟩, hbelow⟩
  · refine h.tip.imp (fun htip => ?_) id
    rw [map_cons, ← hids]
    exact mem_cons_of_mem _ htip

theorem step (hstep : Stepped load succs s s') : Inv load succs tip s' := by
  cases hstep with
  | finished x below hstack => exact h.finished hstack
  | passed x y rest below hstack hy => exact h.passed hstack hy
  | pushed x y rest below node hstack hy hload => exact h.pushed hstack hy hload

/-- The next successor of the top of the stack is reachable. -/
theorem next_reach (hstack : s.stack = (x, y :: rest) :: below) :
    Relation.ReflTransGen (Edge load succs) tip x ∧ Edge load succs x y := by
  obtain ⟨⟨seen, hsuccs, _⟩, hbelow⟩ := h.top hstack
  exact ⟨hbelow.reach, edge_of_succs hsuccs⟩

/-- A successor that is on the stack closes a cycle. -/
theorem next_cycle (hstack : s.stack = (x, y :: rest) :: below)
    (hy : s.state.get? y = some .visiting) : Relation.TransGen (Edge load succs) y y := by
  have hmem := (h.visiting y).mp hy
  rw [hstack, map_cons, mem_cons] at hmem
  have hpath : Relation.ReflTransGen (Edge load succs) y x := by
    rcases hmem with rfl | hmem
    · exact .refl
    · exact (h.top hstack).2.path hmem
  exact .tail' hpath (h.next_reach hstack).2

end

end Inv

/-! ## Every search ends -/

variable (load succs) in
/-- What the nodes without a colour can cost. -/
def unseen (univ : List α) (state : AssocMap α Color) : Nat :=
  (univ.map fun x =>
    if (state.get? x).isNone then (succsOf load succs x).length + 2 else 0).sum

variable (load succs) in
/-- What the unseen nodes and the stack can still cost. -/
def potential (univ : List α) (s : Search α β) : Nat :=
  unseen load succs univ s.state + (s.stack.map fun frame => frame.2.length + 1).sum

/-- Colouring a node pays for it. -/
theorem unseen_insert {univ : List α} {y : α} (hy : y ∈ univ) {state : AssocMap α Color}
    (hnone : state.get? y = none) (c : Color) :
    unseen load succs univ (state.insert y c) + (succsOf load succs y).length + 2 ≤
      unseen load succs univ state := by
  obtain ⟨front, back, rfl⟩ := append_of_mem hy
  have hle : ∀ z, (if ((state.insert y c).get? z).isNone then (succsOf load succs z).length + 2
      else 0) ≤ if (state.get? z).isNone then (succsOf load succs z).length + 2 else 0 := by
    intro z
    rw [get?_insert]
    split <;> split <;> simp_all
  have hfront := sum_le_sum fun z (_ : z ∈ front) => hle z
  have hback := sum_le_sum fun z (_ : z ∈ back) => hle z
  simp only [unseen, map_append, map_cons, sum_append, sum_cons,
    get?_insert_self, hnone]
  simp only [Option.isNone_some, Option.isNone_none, Bool.false_eq_true, if_true, if_false]
  omega

variable {univ : List α} {tip : α} (huniv : ∀ x node, load x = .ok node → x ∈ univ)
include huniv

theorem potential_step {s s' : Search α β} (h : Inv load succs tip s)
    (hstep : Stepped load succs s s') :
    potential load succs univ s' < potential load succs univ s := by
  cases hstep with
  | finished x below hstack =>
    have hx : s.state.get? x = some .visiting := (h.visiting x).mpr (by rw [hstack]; simp)
    have hunseen : ∀ z, ((s.state.insert x .visited).get? z).isNone = (s.state.get? z).isNone := by
      intro z
      rw [get?_insert]
      split_ifs with heq
      · simp [heq, hx]
      · rfl
    simp only [potential, unseen, hunseen, hstack, map_cons, sum_cons]
    omega
  | passed x y rest below hstack hy =>
    simp only [potential, hstack, map_cons, sum_cons, length_cons]
    omega
  | pushed x y rest below node hstack hy hload =>
    have hless : _ ≤ unseen load succs univ s.state :=
      unseen_insert (huniv y node hload) hy .visiting
    rw [succsOf_of_load hload] at hless
    simp only [potential, hstack, map_cons, sum_cons, length_cons]
    omega

variable (cycle) in
/-- A loop with enough steps ends with an empty stack, or with an error that a reachable
node or a cycle of reachable nodes accounts for. -/
theorem loop_spec {fuel : Nat} {s : Search α β} (h : Inv load succs tip s)
    (hfuel : potential load succs univ s ≤ fuel) :
    (∃ s', s.loop load succs cycle fuel = .ok s' ∧ Inv load succs tip s' ∧ s'.stack = []) ∨
      ∃ e y, s.loop load succs cycle fuel = .error e ∧
        Relation.ReflTransGen (Edge load succs) tip y ∧
        (load y = .error e ∨ e = cycle y ∧ Relation.TransGen (Edge load succs) y y) := by
  induction fuel generalizing s with
  | zero =>
    refine .inl ⟨s, rfl, h, ?_⟩
    cases hstack : s.stack with
    | nil => rfl
    | cons frame below =>
      simp only [potential, hstack, map_cons, sum_cons] at hfuel
      omega
  | succ fuel ih =>
    rw [Search.loop]
    by_cases hempty : s.stack = []
    · rw [if_pos (by rw [hempty]; rfl)]
      exact .inl ⟨s, rfl, h, hempty⟩
    rw [if_neg (by rwa [List.isEmpty_iff])]
    rcases step_cases cycle s hempty with
      ⟨s', hok, hstep⟩ | ⟨e, x, y, rest, below, herror, hstack, hcause⟩
    · rw [hok]
      refine ih (h.step hstep) ?_
      have hless := potential_step huniv h hstep
      omega
    · rw [herror]
      obtain ⟨hx, hedge⟩ := h.next_reach hstack
      refine .inr ⟨e, y, rfl, hx.tail hedge, hcause.imp id ?_⟩
      exact fun ⟨he, hy⟩ => ⟨he, h.next_cycle hstack hy⟩

variable {node : β}

theorem potential_start (h : load tip = .ok node) :
    potential load succs univ (.start succs tip node) ≤ bound load succs univ := by
  have hless : _ ≤ unseen load succs univ .empty :=
    unseen_insert (huniv tip node h) (get?_empty) .visiting
  have hall : unseen load succs univ .empty = bound load succs univ := by
    simp [unseen, bound]
  rw [succsOf_of_load h] at hless
  simp only [potential, Search.start, map_cons, map_nil, sum_cons, sum_nil]
  omega

/-! ## What comes out -/

omit huniv in
theorem drain_eq {order : List α} (hnodup : order.Nodup) {nodes : AssocMap α β} {f : α → β}
    (hf : ∀ x ∈ order, nodes.get? x = some (f x)) :
    drain order nodes = order.map fun x => (x, f x) := by
  induction order generalizing nodes with
  | nil => rfl
  | cons x rest ih =>
    rw [nodup_cons] at hnodup
    rw [drain, hf x mem_cons_self]
    refine congrArg _ (ih hnodup.2 fun y hy => ?_)
    rw [get?_erase_of_ne _ (fun heq : y = x => hnodup.1 (heq ▸ hy))]
    exact hf y (mem_cons_of_mem _ hy)

/-- **A search that succeeds** found every reachable node, once and after its
successors. -/
theorem search_ok (h : load tip = .ok node) {l : List (α × β)}
    (hok : search load succs cycle univ tip node = .ok l) :
    Topological Prod.fst (fun e => succs e.2) l ∧
      (∀ x, x ∈ l.map Prod.fst ↔ Relation.ReflTransGen (Edge load succs) tip x) ∧
      ∀ e ∈ l, load e.1 = .ok e.2 := by
  rw [search] at hok
  rcases loop_spec cycle huniv (inv_start h) (potential_start huniv h) with
    ⟨s, hloop, hinv, hstack⟩ | ⟨e, y, hloop, _⟩
  · rw [hloop] at hok
    have hnodup : s.postOrder.Nodup := by simpa using hinv.sorted.nodup
    have hnodes : ∀ x ∈ s.postOrder, s.nodes.get? x = some ((s.nodes.get? x).getD node) := by
      intro x hx
      have hsome := hinv.colored x
      rw [(hinv.visited x).mpr hx] at hsome
      obtain ⟨n, hn⟩ := Option.isSome_iff_exists.mp hsome.symm
      simp [hn]
    have hl : l = s.postOrder.map fun x => (x, (s.nodes.get? x).getD node) := by
      rw [← drain_eq hnodup hnodes]
      cases hok
      rfl
    have hids : l.map Prod.fst = s.postOrder := by
      rw [hl, map_map]
      exact map_id _
    have hload : ∀ x ∈ s.postOrder, load x = .ok ((s.nodes.get? x).getD node) :=
      fun x hx => hinv.loaded x _ (hnodes x hx)
    refine ⟨?_, ?_, ?_⟩
    · rw [hl]
      exact hinv.sorted.map _ (fun _ _ => rfl) fun x hx => (succsOf_of_load (hload x hx)).symm
    · intro x
      rw [hids]
      refine ⟨hinv.reached x, fun hreach => ?_⟩
      have htip : tip ∈ s.postOrder := hinv.tip.resolve_left (by simp [hstack])
      have hmem := hinv.sorted.reach_mem (r := Edge load succs) (fun _ _ _ hy => hy)
        (by simpa using htip) hreach
      simpa using hmem
    · intro e he
      rw [hl, mem_map] at he
      obtain ⟨x, hx, rfl⟩ := he
      exact hload x hx
  · simp [hloop] at hok

/-- **A search that fails** met a reachable node that does not load, or one on a cycle. -/
theorem search_error (h : load tip = .ok node) {e : ε}
    (herror : search load succs cycle univ tip node = .error e) :
    ∃ y, Relation.ReflTransGen (Edge load succs) tip y ∧
      (load y = .error e ∨ e = cycle y ∧ Relation.TransGen (Edge load succs) y y) := by
  rw [search] at herror
  rcases loop_spec cycle huniv (inv_start h) (potential_start huniv h) with
    ⟨s, hloop, _⟩ | ⟨e', y, hloop, hreach, hcause⟩
  · rw [hloop] at herror
    cases herror
  · rw [hloop] at herror
    cases herror
    exact ⟨y, hreach, hcause⟩

end

end Dfs

end DamHopper
