import DamHopper.Git.CommitFormat
import DamHopper.Git.History

/-!
# Graph — the commits behind a tip, and what a pass over them does

The ids of an object database form a graph by the parents of their commits. Collecting
succeeds exactly when every commit behind the tip can be read, by libgit2 as by the parser of
the source, and none is its own ancestor (`collectParentFirst_ok_iff`), and then lists each of
them once, after its parents (`Collected`).
-/

namespace DamHopper.Git

open Odb List

section

variable (g : Git2)

namespace Odb

/-- The commit with this id, if there is one and it can be read. -/
def commit? (odb : Odb) (oid : Oid) : Option RawCommit :=
  match odb.read g oid with
  | some ⟨.commit, data⟩ => (parseRawCommit g.oidError data).toOption
  | _ => none

def Parent (odb : Odb) (x y : Oid) : Prop := ∃ c, odb.commit? g x = some c ∧ y ∈ c.parents

/-- The second is the first or one of its ancestors. -/
def Reaches (odb : Odb) : Oid → Oid → Prop := Relation.ReflTransGen (odb.Parent g)

/-- Every commit behind the tip can be read, libgit2 finds the same tree and parents in it, and
none is its own ancestor. -/
structure Readable (odb : Odb) (tip : Oid) : Prop where
  parses : ∀ x, odb.Reaches g tip x → ∃ c, odb.commit? g x = some c
  agrees : ∀ x c, odb.Reaches g tip x → odb.commit? g x = some c →
    odb.findCommit g x = .ok (c.treeOid, c.parents)
  acyclic : ∀ x, odb.Reaches g tip x → ¬ Relation.TransGen (odb.Parent g) x x

/-- The node holds what its commit says, to libgit2 as to the parser. -/
def IsNode (odb : Odb) (node : CommitNode) : Prop :=
  odb.read g node.oid = some ⟨.commit, node.raw⟩ ∧
    g.readCommit node.raw = .ok (node.treeOid, node.parents) ∧
    ∃ c, parseRawCommit g.oidError node.raw = .ok c ∧ node.treeOid = c.treeOid ∧
      node.parents = c.parents

def CollisionFree (odb : Odb) : Prop :=
  ∀ o ∈ odb.objects, ∀ o' ∈ odb.objects, g.hash o = g.hash o' → o = o'

/-- libgit2 reads the commits that were added to a database as the parser does. -/
def Rereads (odb odb' : Odb) : Prop :=
  ∀ data c, ⟨.commit, data⟩ ∈ odb'.objects.drop odb.objects.length →
    parseRawCommit g.oidError data = .ok c → g.readCommit data = .ok (c.treeOid, c.parents)

end Odb

variable {g} {odb : Odb} {tip : Oid}
  {oid x y : Oid} {c : RawCommit} {node : CommitNode}

theorem Odb.commit?_eq_some_iff :
    odb.commit? g oid = some c ↔ ∃ data, odb.read g oid = some ⟨.commit, data⟩ ∧
      parseRawCommit g.oidError data = .ok c := by
  have hoption : ∀ {x : Except RewriteFailure RawCommit}, x.toOption = some c ↔ x = .ok c := by
    intro x
    cases x <;> simp [Except.toOption]
  unfold commit?
  split
  next data hread => simp [hread, hoption]
  next hread =>
    refine iff_of_false nofun ?_
    rintro ⟨data, hdata, _⟩
    exact hread data hdata

theorem Odb.findCommit_of_read {data : Bytes} (h : odb.read g oid = some ⟨.commit, data⟩) :
    odb.findCommit g oid = g.readCommit data := by
  rw [findCommit, h]

theorem Odb.IsNode.commit? (h : odb.IsNode g node) :
    ∃ c, odb.commit? g node.oid = some c ∧ parseRawCommit g.oidError node.raw = .ok c ∧
      node.treeOid = c.treeOid ∧ node.parents = c.parents := by
  obtain ⟨hread, _, c, hparse, htree, hparents⟩ := h
  exact ⟨c, commit?_eq_some_iff.mpr ⟨_, hread, hparse⟩, hparse, htree, hparents⟩

theorem Odb.parent_iff (h : odb.commit? g x = some c) : odb.Parent g x y ↔ y ∈ c.parents := by
  constructor
  · rintro ⟨c', hc', hy⟩
    cases h.symm.trans hc'
    exact hy
  · exact fun hy => ⟨c, h, hy⟩

theorem Odb.IsNode.parent_iff (h : odb.IsNode g node) (y : Oid) :
    odb.Parent g node.oid y ↔ y ∈ node.parents := by
  obtain ⟨c, hcommit, _, _, hparents⟩ := h.commit?
  rw [hparents]
  exact Odb.parent_iff hcommit

/-! ## Collecting -/

theorem orFail_eq_ok_iff {ε ε' α : Type} {x : Except ε α} {failure : ε → ε'} {a : α} :
    orFail x failure = .ok a ↔ x = .ok a := by
  cases x <;> simp [orFail]

/-- The cross-check is passed exactly by what libgit2 reads. -/
theorem crossCheckCommitNode_eq_ok_iff {tree : Oid} {parents : List Oid} :
    crossCheckCommitNode g odb oid tree parents = .ok () ↔
      odb.findCommit g oid = .ok (tree, parents) := by
  simp only [crossCheckCommitNode, bind_eq_ok_iff, require_eq_ok_iff, checkAll_eq_ok_iff,
    orFail_eq_ok_iff]
  constructor
  · rintro ⟨⟨tree', parents'⟩, hfind, _, rfl, _, hlength, hall⟩
    have hsame : Forall₂ Eq parents parents' := by
      refine forall₂_iff_zip.mpr ⟨hlength.symm, fun {p q} hpq => ?_⟩
      obtain ⟨i, hi, heq⟩ := getElem_of_mem hpq
      exact (hall ((p, q), i) (mem_zipIdx_iff_getElem?.mpr (heq ▸ getElem?_eq_getElem hi))).symm
    rw [forall₂_eq_eq_eq] at hsame
    rw [hfind, hsame]
  · intro hfind
    refine ⟨_, hfind, (), rfl, (), rfl, fun entry hentry => ?_⟩
    have hzip : parents.zip parents = parents.map fun p => (p, p) := by
      simpa using zip_map' (f := id) (g := id) (l := parents)
    have hmem := fst_mem_of_mem_zipIdx hentry
    rw [hzip, mem_map] at hmem
    obtain ⟨p, _, hp⟩ := hmem
    rw [← hp]

theorem loadCommit_eq_ok_iff {place : String} :
    loadCommit g odb place oid = .ok node ↔ node.oid = oid ∧ odb.IsNode g node := by
  simp only [loadCommit, bind_eq_ok_iff, require_eq_ok_iff, expect_eq_ok_iff]
  constructor
  · rintro ⟨⟨kind, data⟩, hread, _, hkind, c, hparse, _, hagrees, ⟨⟩⟩
    subst hkind
    exact ⟨rfl, hread, (findCommit_of_read hread).symm.trans
      (crossCheckCommitNode_eq_ok_iff.mp hagrees), c, hparse, rfl, rfl⟩
  · rintro ⟨rfl, hread, hagrees, c, hparse, htree, hparents⟩
    rw [htree, hparents] at hagrees
    refine ⟨_, hread, (), rfl, c, hparse, (),
      crossCheckCommitNode_eq_ok_iff.mpr ((findCommit_of_read hread).trans hagrees), ?_⟩
    rw [← htree, ← hparents]

theorem exists_loadCommit (h : odb.commit? g oid = some c)
    (hagrees : odb.findCommit g oid = .ok (c.treeOid, c.parents)) (place : String) :
    ∃ node, loadCommit g odb place oid = .ok node := by
  obtain ⟨data, hread, hparse⟩ := commit?_eq_some_iff.mp h
  rw [findCommit_of_read hread] at hagrees
  exact ⟨⟨oid, c.treeOid, c.parents, data⟩,
    loadCommit_eq_ok_iff.mpr ⟨rfl, hread, hagrees, c, hparse, rfl, rfl⟩⟩

/-- From a commit that is loaded the search goes to its parents. -/
theorem edge_iff_parent (hload : loadCommit g odb "parent" x = .ok node) :
    Dfs.Edge (loadCommit g odb "parent") CommitNode.parents x y ↔ odb.Parent g x y := by
  obtain ⟨rfl, hnode⟩ := loadCommit_eq_ok_iff.mp hload
  rw [Dfs.Edge, Dfs.succsOf, hload]
  exact (hnode.parent_iff y).symm

theorem parent_of_edge (x y : Oid)
    (h : Dfs.Edge (loadCommit g odb "parent") CommitNode.parents x y) : odb.Parent g x y := by
  cases hload : loadCommit g odb "parent" x with
  | ok node => exact (edge_iff_parent hload).mp h
  | error e => simp [Dfs.Edge, Dfs.succsOf, hload] at h

theorem mem_hashes_of_load (h : loadCommit g odb "parent" x = .ok node) :
    x ∈ odb.objects.map g.hash := by
  obtain ⟨rfl, hread, _⟩ := loadCommit_eq_ok_iff.mp h
  have hhash := find?_some hread
  exact mem_map.mpr ⟨_, mem_of_find?_eq_some hread, by simpa using hhash⟩

variable (g odb tip) in
/-- The commits behind the tip, each once and after its parents. -/
structure Collected (nodes : List CommitNode) : Prop where
  sorted : Topological CommitNode.oid CommitNode.parents nodes
  mem : ∀ x, x ∈ nodes.map (·.oid) ↔ odb.Reaches g tip x
  loaded : ∀ node ∈ nodes, odb.IsNode g node

theorem collectParentFirst_collected {nodes : List CommitNode}
    (h : collectParentFirst g odb tip = .ok nodes) : Collected g odb tip nodes := by
  simp only [collectParentFirst, bind_eq_ok_iff] at h
  obtain ⟨node, htip, found, hfound, ⟨⟩⟩ := h
  have htip' : loadCommit g odb "parent" tip = .ok node :=
    loadCommit_eq_ok_iff.mpr (loadCommit_eq_ok_iff.mp htip)
  obtain ⟨hsorted, hmem, hload⟩ := Dfs.search_ok (fun _ _ hx => mem_hashes_of_load hx) htip' hfound
  have hoid : ∀ e ∈ found, e.2.oid = e.1 := fun e he => (loadCommit_eq_ok_iff.mp (hload e he)).1
  have hedges : ∀ x, odb.Reaches g tip x → x ∈ found.map Prod.fst := by
    intro x hx
    induction hx with
    | refl => exact (hmem tip).mpr .refl
    | tail _ hstep ih =>
      obtain ⟨e, he, rfl⟩ := mem_map.mp ih
      exact (hmem _).mpr (((hmem _).mp ih).tail ((edge_iff_parent (hload e he)).mpr hstep))
  refine ⟨hsorted.map Prod.snd hoid fun _ _ => rfl, fun x => ?_, fun n hn => ?_⟩
  · have hids : found.map (fun e => e.2.oid) = found.map Prod.fst := map_congr_left hoid
    rw [map_map, show (fun n : CommitNode => n.oid) ∘ Prod.snd = fun e => e.2.oid from rfl, hids]
    exact ⟨fun hx => Relation.ReflTransGen.mono parent_of_edge _ _ ((hmem x).mp hx), hedges x⟩
  · obtain ⟨e, he, rfl⟩ := mem_map.mp hn
    exact (loadCommit_eq_ok_iff.mp (hload e he)).2

namespace Collected

variable {nodes : List CommitNode}

section

variable (h : Collected g odb tip nodes)
include h

theorem parent_iff : ∀ node ∈ nodes, ∀ y, odb.Parent g node.oid y ↔ y ∈ node.parents :=
  fun node hnode y => (h.loaded node hnode).parent_iff y

theorem readable : odb.Readable g tip where
  parses x hx := by
    obtain ⟨node, hnode, rfl⟩ := mem_map.mp ((h.mem x).mpr hx)
    obtain ⟨c, hc, _⟩ := (h.loaded node hnode).commit?
    exact ⟨c, hc⟩
  agrees x c hx hc := by
    obtain ⟨node, hnode, rfl⟩ := mem_map.mp ((h.mem x).mpr hx)
    obtain ⟨c', hc', _, htree, hparents⟩ := (h.loaded node hnode).commit?
    cases hc.symm.trans hc'
    rw [findCommit_of_read (h.loaded node hnode).1, (h.loaded node hnode).2.1, htree, hparents]
  acyclic x hx :=
    h.sorted.acyclic (fun node hnode y => (h.parent_iff node hnode y).mp) ((h.mem x).mpr hx)

/-- The node of a commit behind the tip. -/
theorem exists_node (hx : odb.Reaches g tip x) : ∃ node ∈ nodes, node.oid = x :=
  mem_map.mp ((h.mem x).mpr hx)

theorem reaches (hnode : node ∈ nodes) : odb.Reaches g tip node.oid :=
  (h.mem _).mp (mem_map_of_mem hnode)

/-- The closure of a commit: what is behind the tip and has it among its ancestors. -/
theorem mem_affectedClosure {anchor : Oid} :
    x ∈ affectedClosure nodes anchor ↔ odb.Reaches g tip x ∧ odb.Reaches g x anchor := by
  rw [affectedClosure, h.sorted.mem_dependents h.parent_iff, h.mem x]
  rfl

end

end Collected

/-- **Collecting succeeds exactly on readable histories.** -/
theorem collectParentFirst_ok_iff :
    (∃ nodes, collectParentFirst g odb tip = .ok nodes) ↔ odb.Readable g tip := by
  constructor
  · rintro ⟨nodes, hnodes⟩
    exact (collectParentFirst_collected hnodes).readable
  · intro h
    obtain ⟨c, hc⟩ := h.parses tip .refl
    obtain ⟨node, htip⟩ := exists_loadCommit hc (h.agrees tip c .refl hc) "tip"
    have htip' : loadCommit g odb "parent" tip = .ok node :=
      loadCommit_eq_ok_iff.mpr (loadCommit_eq_ok_iff.mp htip)
    cases hsearch : Dfs.search (loadCommit g odb "parent") CommitNode.parents cycleDetected
        (odb.objects.map g.hash) tip node with
    | ok found =>
      refine ⟨found.map Prod.snd, ?_⟩
      simp only [collectParentFirst, bind_eq_ok_iff]
      exact ⟨node, htip, found, hsearch, rfl⟩
    | error e =>
      exfalso
      obtain ⟨y, hy, hcause⟩ := Dfs.search_error (fun _ _ hx => mem_hashes_of_load hx) htip' hsearch
      have hreach : odb.Reaches g tip y := Relation.ReflTransGen.mono parent_of_edge _ _ hy
      rcases hcause with hload | ⟨_, hcycle⟩
      · obtain ⟨c', hc'⟩ := h.parses y hreach
        obtain ⟨node', hnode'⟩ := exists_loadCommit hc' (h.agrees y c' hreach hc') "parent"
        cases hload.symm.trans hnode'
      · exact h.acyclic y hreach (Relation.TransGen.mono parent_of_edge _ _ hcycle)

/-- **The history behind a tip is collected exactly**: unless a commit cannot be read by both
readers or is its own ancestor, each commit is listed once and after its parents. -/
theorem collect_exact (g : Git2) (odb : Odb) (tip : Oid) :
    ((∃ nodes, collectParentFirst g odb tip = .ok nodes) ↔ odb.Readable g tip) ∧
      ∀ nodes, collectParentFirst g odb tip = .ok nodes → Collected g odb tip nodes :=
  ⟨collectParentFirst_ok_iff, fun _ => collectParentFirst_collected⟩

/-! ## Images of a history -/

variable {f : Oid → Oid} {odb' : Odb}

/-- If the parents of every image are images, and the images of the parents are behind it,
the history behind the image of the tip is the image of the history. -/
theorem reaches_image_of (h : ∀ x, odb.Reaches g tip x →
      (∀ q, odb'.Parent g (f x) q → ∃ p, odb.Reaches g tip p ∧ f p = q) ∧
        ∀ p, odb.Parent g x p → odb'.Reaches g (f x) (f p))
    (y : Oid) : odb'.Reaches g (f tip) y ↔ ∃ x, odb.Reaches g tip x ∧ f x = y := by
  constructor
  · intro hy
    induction hy with
    | refl => exact ⟨tip, .refl, rfl⟩
    | tail _ hstep ih =>
      obtain ⟨x, hx, rfl⟩ := ih
      exact (h x hx).1 _ hstep
  · rintro ⟨x, hx, rfl⟩
    induction hx with
    | refl => exact .refl
    | tail hx hstep ih => exact ih.trans ((h _ hx).2 _ hstep)

/-- So it is if the parents of every image are the images of the parents. -/
theorem reaches_image (h : ∀ x, odb.Reaches g tip x → ∃ c c', odb.commit? g x = some c ∧
      odb'.commit? g (f x) = some c' ∧ c'.parents = c.parents.map f) :
    odb'.Reaches g (f tip) y ↔ ∃ x, odb.Reaches g tip x ∧ f x = y := by
  refine reaches_image_of (fun x hx => ?_) y
  obtain ⟨c, c', hc, hc', hparents⟩ := h x hx
  refine ⟨fun q hq => ?_, fun p hp => ?_⟩
  · rw [parent_iff hc', hparents, mem_map] at hq
    obtain ⟨p, hp, rfl⟩ := hq
    exact ⟨p, hx.tail ((parent_iff hc).mpr hp), rfl⟩
  · refine .single ((parent_iff hc').mpr ?_)
    rw [hparents]
    exact mem_map_of_mem ((parent_iff hc).mp hp)

end

end DamHopper.Git
