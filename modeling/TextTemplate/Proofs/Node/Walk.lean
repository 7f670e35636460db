import Mathlib.Data.List.Lex
import TextTemplate.Node.Render
import TextTemplate.Proofs.Token.Reading

/-!
# Walking trees

A place in a tree is written as a list of numbers: which node of the top list, which of its bodies, which node of this
body, and so on. The nodes of a tree are listed by their places in the order of these lists, each place once, so a node
comes before those in its bodies, and these come body after body. Rendering comes to no other nodes.
-/

namespace TextTemplate

/-! ## Places -/

/-- The places at which something is found, all of them and in order, and what is found there. -/
structure Enumerates {α : Type} (look : List Nat → Option α) (places : List (List Nat)) (found : List α) : Prop where
  found_eq : places.map look = found.map some
  sorted : places.Pairwise (· < ·)
  complete : ∀ place, (look place).isSome → place ∈ places

/-- What is at a place in a list: the place starts with the number of a thing of the list, and goes on in that. -/
def lookIn {α β : Type} (within : β → List Nat → Option α) (things : List β) : List Nat → Option α
  | [] => none
  | i :: rest => things[i]?.bind (within · rest)

namespace Enumerates

variable {α β : Type} {look : List Nat → Option α} {places : List (List Nat)} {found : List α}

theorem isSome_of_mem (h : Enumerates look places found) {place : List Nat} (hplace : place ∈ places) :
    (look place).isSome := by
  have hmem : look place ∈ found.map some := h.found_eq ▸ List.mem_map_of_mem hplace
  obtain ⟨a, -, ha⟩ := List.mem_map.mp hmem
  rw [← ha, Option.isSome_some]

/-- The places of what passes a test are among all places. -/
theorem filter (h : Enumerates look places found) (test : α → Bool) :
    Enumerates (fun place => (look place).filter test) (places.filter fun place => (look place).any test)
      (found.filter test) where
  found_eq := by
    have hfound := h.found_eq
    clear h
    induction places generalizing found with
    | nil =>
      obtain rfl : found = [] := by simpa using hfound.symm
      rfl
    | cons place rest ih =>
      cases found with
      | nil => cases hfound
      | cons a found =>
        obtain ⟨hplace, hrest⟩ := List.cons.inj hfound
        by_cases ha : test a = true
        · rw [List.filter_cons_of_pos (by simpa [hplace] using ha), List.filter_cons_of_pos ha, List.map_cons,
            List.map_cons, ih hrest, hplace, Option.filter_some_pos ha]
        · rw [List.filter_cons_of_neg (by simpa [hplace] using ha), List.filter_cons_of_neg ha, ih hrest]
  sorted := h.sorted.filter _
  complete := by
    intro place hplace
    obtain ⟨a, ha⟩ := Option.isSome_iff_exists.mp hplace
    obtain ⟨hlook, htest⟩ := Option.filter_eq_some_iff.mp ha
    exact List.mem_filter.mpr ⟨h.complete place (by simp [hlook]), by simpa [hlook] using htest⟩

/-- What is at the top comes before all that is below it. -/
theorem below (h : Enumerates look places found) (hnil : look [] = none) (a : α) :
    Enumerates (fun | [] => some a | i :: rest => look (i :: rest)) ([] :: places) (a :: found) := by
  have hne {place : List Nat} (hplace : place ∈ places) : place ≠ [] := by
    rintro rfl
    simpa [hnil] using h.isSome_of_mem hplace
  refine ⟨?_, List.pairwise_cons.mpr ⟨fun place hplace => ?_, h.sorted⟩, fun place hplace => ?_⟩
  · rw [List.map_cons, List.map_cons, ← h.found_eq]
    congr 1
    refine List.map_congr_left fun place hplace => ?_
    obtain ⟨i, rest, rfl⟩ := List.exists_cons_of_ne_nil (hne hplace)
    rfl
  · obtain ⟨i, rest, rfl⟩ := List.exists_cons_of_ne_nil (hne hplace)
    exact List.nil_lt_cons i rest
  · cases place with
    | nil => exact List.mem_cons_self
    | cons i rest => exact List.mem_cons_of_mem _ (h.complete _ hplace)

/-- The places of a list are those in its first thing, and those of the others with their numbers one further on. -/
theorem lookIn_cons {within : β → List Nat → Option α} {b : β} {things : List β} {others : List (List Nat)}
    {found' : List α} (h : Enumerates (within b) places found) (h' : Enumerates (lookIn within things) others found') :
    Enumerates (lookIn within (b :: things)) (places.map (0 :: ·) ++ others.map (List.modifyHead (· + 1)))
      (found ++ found') := by
  have hcons {place : List Nat} (hplace : place ∈ others) : ∃ i rest, place = i :: rest := by
    cases place with
    | nil => simpa [lookIn] using h'.isSome_of_mem hplace
    | cons i rest => exact ⟨i, rest, rfl⟩
  refine ⟨?_, List.pairwise_append.mpr ⟨?_, ?_, fun p hp q hq => ?_⟩, fun place hplace => ?_⟩
  · rw [List.map_append, List.map_append, ← h.found_eq, ← h'.found_eq, List.map_map, List.map_map]
    congr 1
    refine List.map_congr_left fun place hplace => ?_
    obtain ⟨i, rest, rfl⟩ := hcons hplace
    rfl
  · exact List.pairwise_map.mpr (h.sorted.imp fun hlt => List.cons_lt_cons_iff.mpr (.inr ⟨rfl, hlt⟩))
  · refine List.pairwise_map.mpr (h'.sorted.imp_of_mem fun hp hq hlt => ?_)
    obtain ⟨i, p, rfl⟩ := hcons hp
    obtain ⟨j, q, rfl⟩ := hcons hq
    exact List.cons_lt_cons_iff.mpr
      ((List.cons_lt_cons_iff.mp hlt).imp Nat.succ_lt_succ (And.imp_left (congrArg (· + 1))))
  · obtain ⟨p', -, rfl⟩ := List.mem_map.mp hp
    obtain ⟨q', hq', rfl⟩ := List.mem_map.mp hq
    obtain ⟨j, q', rfl⟩ := hcons hq'
    exact List.cons_lt_cons_iff.mpr (.inl (Nat.succ_pos j))
  · rcases place with _ | ⟨_ | i, rest⟩
    · cases hplace
    · exact List.mem_append_left _ (List.mem_map_of_mem (h.complete rest hplace))
    · exact List.mem_append_right _ (List.mem_map.mpr ⟨i :: rest, h'.complete (i :: rest) hplace, rfl⟩)

/-- The places of a list are found if those in each of its things are. -/
theorem exists_lookIn {list : β → List α} {within : β → List Nat → Option α} {things : List β}
    (h : ∀ b ∈ things, ∃ places, Enumerates (within b) places (list b)) :
    ∃ places, Enumerates (lookIn within things) places (things.flatMap list) := by
  induction things with
  | nil => exact ⟨[], rfl, List.Pairwise.nil, fun place hplace => by cases place <;> simp [lookIn] at hplace⟩
  | cons b things ih =>
    obtain ⟨⟨first, hfirst⟩, hothers⟩ := List.forall_mem_cons.mp h
    obtain ⟨others, hothers⟩ := ih hothers
    exact ⟨_, hfirst.lookIn_cons hothers⟩

end Enumerates

/-! ## The nodes of a tree -/

namespace Node

variable {nodes : List Node} {n : Node}

/-- The lists of nodes that a node has, in the order of the source. -/
def bodies : Node → List (List Node)
  | choice branches otherwise => branches.map (·.2) ++ otherwise.toList
  | loop _ _ _ body empty => [body, empty]
  | equality _ _ _ whenTrue whenFalse => [whenTrue, whenFalse]
  | binding _ body | spaceless body | filtered _ body | labelled _ body => [body]
  | text _ | output _ | firstTrue _ | marker _ => []

/-- The node at a place: the number of a node, then by turns that of one of its bodies and that of a node there. -/
def at? : List Nat → List Node → Option Node
  | [], _ => none
  | [i], nodes => nodes[i]?
  | i :: slot :: rest, nodes => do at? rest (← (← nodes[i]?).bodies[slot]?)

theorem sizeOf_lt_of_mem_bodies {body : List Node} (h : body ∈ n.bodies) : sizeOf body < sizeOf n := by
  cases n with
  | choice branches otherwise =>
    rcases List.mem_append.mp h with hbranch | hotherwise
    · obtain ⟨⟨condition, body⟩, hmem, rfl⟩ := List.mem_map.mp hbranch
      have hlt := List.sizeOf_lt_of_mem hmem
      rw [Prod.mk.sizeOf_spec] at hlt
      rw [choice.sizeOf_spec]
      dsimp only
      omega
    · obtain rfl : otherwise = some body := by simpa using hotherwise
      simp only [choice.sizeOf_spec, Option.some.sizeOf_spec]
      omega
  | loop names sequence reversed body' empty =>
    rcases List.mem_pair.mp h with rfl | rfl <;> simp only [loop.sizeOf_spec] <;> omega
  | equality negated left right whenTrue whenFalse =>
    rcases List.mem_pair.mp h with rfl | rfl <;> simp only [equality.sizeOf_spec] <;> omega
  | binding | spaceless | filtered | labelled =>
    obtain rfl := List.mem_singleton.mp h
    simp only [binding.sizeOf_spec, spaceless.sizeOf_spec, filtered.sizeOf_spec, labelled.sizeOf_spec]
    omega
  | text | output | firstTrue | marker => cases h

/-- What holds of a node if it holds of all nodes in its bodies holds of all nodes. -/
theorem bodies_induction {P : Node → Prop} (step : ∀ n, (∀ body ∈ n.bodies, ∀ m ∈ body, P m) → P n) (n : Node) :
    P n :=
  step n fun _ hbody m hm =>
    have := List.sizeOf_lt_of_mem hm
    have := sizeOf_lt_of_mem_bodies hbody
    bodies_induction step m
termination_by sizeOf n

theorem allDescendants_eq (nodes : List Node) : allDescendants nodes = nodes.flatMap descendants := by
  induction nodes with
  | nil => rw [allDescendants, List.flatMap_nil]
  | cons n rest ih => rw [allDescendants, List.flatMap_cons, ih]

theorem branchDescendants_eq (branches : List (Condition × List Node)) :
    branchDescendants branches = (branches.map (·.2)).flatMap allDescendants := by
  induction branches with
  | nil => rw [branchDescendants, List.map_nil, List.flatMap_nil]
  | cons branch rest ih => rw [branchDescendants, List.map_cons, List.flatMap_cons, ih]

theorem allDescendants_getD (otherwise : Option (List Node)) :
    allDescendants (otherwise.getD []) = optionDescendants otherwise := by
  cases otherwise <;> rfl

/-- A node comes before all that is in its bodies, and these come one after the other. -/
theorem descendants_eq (n : Node) : n.descendants = n :: n.bodies.flatMap allDescendants := by
  cases n with
  | choice branches otherwise =>
    rw [descendants, bodies, List.flatMap_append, branchDescendants_eq]
    cases otherwise <;> simp [optionDescendants]
  | _ => simp [descendants, bodies]

/-- Empty bodies have no nodes, so it does not matter that some of them are no children. -/
theorem children_flatMap {α : Type} {f : List Node → List α} (hf : f [] = []) (n : Node) :
    n.children.flatMap f = n.bodies.flatMap f := by
  have hfilter (bodies : List (List Node)) : (bodies.filter (!·.isEmpty)).flatMap f = bodies.flatMap f := by
    induction bodies with
    | nil => rfl
    | cons body rest ih =>
      cases body with
      | nil => rw [List.filter_cons_of_neg (by simp), List.flatMap_cons, hf, ih, List.nil_append]
      | cons m body => rw [List.filter_cons_of_pos (by simp), List.flatMap_cons, List.flatMap_cons, ih]
  cases n with
  | choice => rfl
  | _ => simp only [children, bodies, hfilter, List.flatMap_nil]

/-- Nodes are collected as a tree is walked: those of a list one after the other, and of each node the node itself, if
it is wanted, and then those of its children. -/
theorem filter_allDescendants (wanted : Node → Bool) (nodes : List Node) : (allDescendants nodes).filter wanted =
    nodes.flatMap fun n => (if wanted n then [n] else []) ++
      n.children.flatMap fun body => (allDescendants body).filter wanted := by
  rw [allDescendants_eq, List.filter_flatMap]
  refine List.flatMap_congr fun n _ => ?_
  have hchildren := children_flatMap (f := fun body => (allDescendants body).filter wanted) rfl n
  rw [hchildren, descendants_eq, List.filter_cons, List.filter_flatMap]
  split <;> rfl

/-- The node at a place seen from a node: the node itself, or one in its bodies. -/
def within? (n : Node) : List Nat → Option Node
  | [] => some n
  | slot :: rest => lookIn (fun body rest => at? rest body) n.bodies (slot :: rest)

theorem at?_eq (nodes : List Node) : (at? · nodes) = lookIn within? nodes := by
  funext place
  rcases place with _ | ⟨i, _ | ⟨slot, rest⟩⟩
  · rfl
  · cases h : nodes[i]? <;> simp [at?, lookIn, h, within?]
  · rfl

theorem exists_enumerates_of_forall (h : ∀ n ∈ nodes, ∃ places, Enumerates n.within? places n.descendants) :
    ∃ places, Enumerates (at? · nodes) places (allDescendants nodes) := by
  rw [at?_eq, allDescendants_eq]
  exact Enumerates.exists_lookIn h

/-- The nodes from a node on are listed by their places seen from it. -/
theorem exists_enumerates_within (n : Node) : ∃ places, Enumerates n.within? places n.descendants := by
  induction n using bodies_induction with
  | step n ih =>
    obtain ⟨places, hplaces⟩ := Enumerates.exists_lookIn fun body hbody => exists_enumerates_of_forall (ih body hbody)
    rw [descendants_eq]
    exact ⟨_, hplaces.below rfl n⟩

/-- The nodes of a tree are listed by their places. -/
theorem exists_enumerates (nodes : List Node) :
    ∃ places, Enumerates (at? · nodes) places (allDescendants nodes) :=
  exists_enumerates_of_forall fun n _ => n.exists_enumerates_within

/-! ## The nodes that rendering comes to -/

mutual

/-- The text that a node writes. Whenever rendering comes to a node, something is done there first. -/
def renderVisiting (visit : Node → RenderM Unit) (n : Node) : RenderM String := do
  visit n
  match n with
  | text s => return s
  | output e => e.render
  | choice branches otherwise => renderBranchesVisiting visit (renderOptionVisiting visit otherwise) branches
  | loop names sequence reversed body empty =>
    Loop.render names sequence reversed (renderAllVisiting visit body) (renderAllVisiting visit empty)
  | binding assignments body => do
    let scope ← resolveAll assignments
    RenderM.withScope (Entries.putAll [] scope) (renderAllVisiting visit body)
  | equality negated left right whenTrue whenFalse => do
    if (← operandsEqual left right) != negated then renderAllVisiting visit whenTrue
    else renderAllVisiting visit whenFalse
  | firstTrue candidates => writeFirstTrue candidates
  | spaceless body => do
    return String.ofList (closeGaps (Text.trim (← renderAllVisiting visit body).toList))
  | filtered calls body => do
    let v ← FilterCall.applyAll calls (.text (← renderAllVisiting visit body))
    RenderM.onValues v.write
  | labelled label body => do
    return "[" ++ label ++ "]" ++ (← renderAllVisiting visit body) ++ "[/" ++ label ++ "]"
  | marker s => return s

def renderAllVisiting (visit : Node → RenderM Unit) : List Node → RenderM String
  | [] => return ""
  | n :: rest => do
    let s ← renderVisiting visit n
    return s ++ (← renderAllVisiting visit rest)

def renderBranchesVisiting (visit : Node → RenderM Unit) (otherwise : RenderM String) :
    List (Condition × List Node) → RenderM String
  | [] => otherwise
  | (condition, body) :: rest => do
    if ← condition.eval then renderAllVisiting visit body else renderBranchesVisiting visit otherwise rest

def renderOptionVisiting (visit : Node → RenderM Unit) : Option (List Node) → RenderM String
  | none => return ""
  | some body => renderAllVisiting visit body

end

/-- In some state, rendering comes to a node: something done there, and at no other node, makes a difference. -/
def Reaches (nodes : List Node) (n : Node) : Prop :=
  ∃ visit s, (∀ m ≠ n, visit m = pure ()) ∧ renderAllVisiting visit nodes s ≠ renderAll nodes s

mutual

theorem renderVisiting_pure : (n : Node) → renderVisiting (fun _ => pure ()) n = n.render
  | text _ | output _ | firstTrue _ | marker _ => by rw [renderVisiting, render, pure_bind]
  | choice branches otherwise => by
    rw [renderVisiting, render, pure_bind]
    rw [renderOptionVisiting_pure otherwise, renderBranchesVisiting_pure _ branches]
  | loop names sequence reversed body empty => by
    rw [renderVisiting, render, pure_bind]
    rw [renderAllVisiting_pure body, renderAllVisiting_pure empty]
  | binding _ body | spaceless body | filtered _ body | labelled _ body => by
    rw [renderVisiting, render, pure_bind]
    rw [renderAllVisiting_pure body]
  | equality _ _ _ whenTrue whenFalse => by
    rw [renderVisiting, render, pure_bind]
    rw [renderAllVisiting_pure whenTrue, renderAllVisiting_pure whenFalse]

/-- If nothing is done at any node, this is rendering. -/
theorem renderAllVisiting_pure : (nodes : List Node) → renderAllVisiting (fun _ => pure ()) nodes = renderAll nodes
  | [] => rfl
  | n :: rest => by rw [renderAllVisiting, renderAll, renderVisiting_pure n, renderAllVisiting_pure rest]

theorem renderBranchesVisiting_pure (otherwise : RenderM String) : (branches : List (Condition × List Node)) →
    renderBranchesVisiting (fun _ => pure ()) otherwise branches = renderBranches otherwise branches
  | [] => rfl
  | (condition, body) :: rest => by
    rw [renderBranchesVisiting, renderBranches, renderAllVisiting_pure body, renderBranchesVisiting_pure otherwise rest]

theorem renderOptionVisiting_pure : (otherwise : Option (List Node)) →
    renderOptionVisiting (fun _ => pure ()) otherwise = renderOption otherwise
  | none => rfl
  | some body => renderAllVisiting_pure body

end

variable {visit visit' : Node → RenderM Unit}

mutual

theorem renderVisiting_congr : (n : Node) → (∀ m ∈ n.descendants, visit m = visit' m) →
    renderVisiting visit n = renderVisiting visit' n
  | text _, h | output _, h | firstTrue _, h | marker _, h => by
    rw [descendants] at h
    rw [renderVisiting, renderVisiting, h _ List.mem_cons_self]
  | choice branches otherwise, h => by
    rw [descendants] at h
    obtain ⟨hself, hbelow⟩ := List.forall_mem_cons.mp h
    obtain ⟨hbranches, hotherwise⟩ := List.forall_mem_append.mp hbelow
    rw [renderVisiting, renderVisiting, hself, renderOptionVisiting_congr otherwise hotherwise,
      renderBranchesVisiting_congr branches hbranches]
  | loop _ _ _ body empty, h => by
    rw [descendants] at h
    obtain ⟨hself, hbelow⟩ := List.forall_mem_cons.mp h
    obtain ⟨hbody, hempty⟩ := List.forall_mem_append.mp hbelow
    rw [renderVisiting, renderVisiting, hself, renderAllVisiting_congr body hbody, renderAllVisiting_congr empty hempty]
  | equality _ _ _ whenTrue whenFalse, h => by
    rw [descendants] at h
    obtain ⟨hself, hbelow⟩ := List.forall_mem_cons.mp h
    obtain ⟨htrue, hfalse⟩ := List.forall_mem_append.mp hbelow
    rw [renderVisiting, renderVisiting, hself, renderAllVisiting_congr whenTrue htrue,
      renderAllVisiting_congr whenFalse hfalse]
  | binding _ body, h | spaceless body, h | filtered _ body, h | labelled _ body, h => by
    rw [descendants] at h
    obtain ⟨hself, hbody⟩ := List.forall_mem_cons.mp h
    rw [renderVisiting, renderVisiting, hself, renderAllVisiting_congr body hbody]

/-- What is done at other nodes than those of the tree makes no difference. -/
theorem renderAllVisiting_congr : (nodes : List Node) → (∀ m ∈ allDescendants nodes, visit m = visit' m) →
    renderAllVisiting visit nodes = renderAllVisiting visit' nodes
  | [], _ => rfl
  | n :: rest, h => by
    rw [allDescendants] at h
    obtain ⟨hfirst, hrest⟩ := List.forall_mem_append.mp h
    rw [renderAllVisiting, renderAllVisiting, renderVisiting_congr n hfirst, renderAllVisiting_congr rest hrest]

theorem renderBranchesVisiting_congr {otherwise : RenderM String} : (branches : List (Condition × List Node)) →
    (∀ m ∈ branchDescendants branches, visit m = visit' m) →
      renderBranchesVisiting visit otherwise branches = renderBranchesVisiting visit' otherwise branches
  | [], _ => rfl
  | (condition, body) :: rest, h => by
    rw [branchDescendants] at h
    obtain ⟨hbody, hrest⟩ := List.forall_mem_append.mp h
    rw [renderBranchesVisiting, renderBranchesVisiting, renderAllVisiting_congr body hbody,
      renderBranchesVisiting_congr rest hrest]

theorem renderOptionVisiting_congr : (otherwise : Option (List Node)) →
    (∀ m ∈ optionDescendants otherwise, visit m = visit' m) →
      renderOptionVisiting visit otherwise = renderOptionVisiting visit' otherwise
  | none, _ => rfl
  | some body, h => renderAllVisiting_congr body h

end

/-- Rendering comes to nodes of the tree only. -/
theorem mem_allDescendants_of_reaches (h : Reaches nodes n) : n ∈ allDescendants nodes := by
  obtain ⟨visit, s, hquiet, hdiffers⟩ := h
  by_contra hmem
  refine hdiffers ?_
  rw [← renderAllVisiting_pure, renderAllVisiting_congr nodes fun m hm => hquiet m fun heq => hmem (heq ▸ hm)]

end Node

end TextTemplate
