import EphemeralValidator.Solana.Account

/-! # The parent of an instruction frame

`InstructionContextFrames::try_from` lists every instruction of a transaction's trace, in
the order the runtime ran them, with its index in the trace and its nesting level (the stack
height less one).  The trace lists each call tree depth first: a top-level instruction at
level 0, then what it invoked, each one level deeper than its caller (`DepthFirst`).
`find_parent_frame` walks back from a frame to the first one with a smaller level, and
asserts that it is exactly one level up.

In a depth-first trace that frame is the caller: the last frame before with the level one
less (`IsInvoker`), and the assertion holds (`find_parent_frame_returns_invoker`).  The walk is
`scanParent`; a frame is read by its index in the trace, which panics when the index is past
the end, as `&self.0[frame_idx]` does.
-/

namespace EphemeralValidator.Magicblock

open EphemeralValidator.Solana

/-- The methods of the `InstructionFrame` trait. -/
class InstructionFrame (F : Type) where
  getNestingLevel : F → Nat
  getIndex : F → Nat
  getProgramId : F → Option Pubkey

open InstructionFrame

inductive FramePanic where
  /-- `self.0[frame_idx]` past the end of the frames -/
  | indexOutOfBounds
  /-- `debug_assert_eq!(nesting_level + 1, current_nesting_level, "cannot skip a frame")` -/
  | cannotSkipAFrame
  deriving DecidableEq, Repr

variable {F : Type} [InstructionFrame F]

/-- The loop `for frame_idx in (0..n).rev()` of `find_parent_frame`, for a frame at
`currentNestingLevel`. -/
def scanParent (frames : List F) (currentNestingLevel : Nat) : Nat → Except FramePanic (Option F)
  | 0 => .ok none
  | frameIdx + 1 =>
    match frames[frameIdx]? with
    | none => .error .indexOutOfBounds
    | some frame =>
      let nestingLevel := getNestingLevel frame
      if nestingLevel < currentNestingLevel then
        if nestingLevel + 1 = currentNestingLevel then .ok (some frame) else .error .cannotSkipAFrame
      else scanParent frames currentNestingLevel frameIdx

/-- `GenericInstructionContextFrames::find_parent_frame`. -/
def findParentFrame (frames : List F) (currentFrame : F) : Except FramePanic (Option F) :=
  let currentNestingLevel := getNestingLevel currentFrame
  if currentNestingLevel = 0 then .ok none
  else scanParent frames currentNestingLevel (getIndex currentFrame)

/-- `find_program_id_of_parent_frame`. -/
def findProgramIdOfParentFrame (frames : List F) (currentFrame : F) : Except FramePanic (Option Pubkey) :=
  (findParentFrame frames currentFrame).map fun parent => parent.bind getProgramId

/-! ## The frames of a transaction -/

/-- What a frame reads of its `InstructionContext`: the stack height and the last program key. -/
structure InstructionContext where
  stackHeight : Nat
  programKey : Option Pubkey
  deriving DecidableEq

structure InstructionContextFrame where
  instructionCtx : InstructionContext
  index : Nat

instance : InstructionFrame InstructionContextFrame where
  -- the stack height is the nesting level plus one
  getNestingLevel frame := frame.instructionCtx.stackHeight - 1
  getIndex frame := frame.index
  getProgramId frame := frame.instructionCtx.programKey

namespace InstructionContextFrames

/-- The frames `try_from` builds from the instruction contexts, each with its index in it. -/
def frames (contexts : List InstructionContext) : List InstructionContextFrame :=
  contexts.mapIdx fun idx ctx => ⟨ctx, idx⟩

/-- The index `try_from` keeps for the current frame: that of the last context of the contexts
equal to the current one; `None` is the `expect` that panics. -/
def currentFrameIdx (contexts : List InstructionContext) (current : InstructionContext) : Option Nat :=
  ((frames contexts).filter fun frame => frame.instructionCtx = current).getLast?.map (·.index)

/-- `find_program_id_of_parent_of_current_instruction`. -/
def findProgramIdOfParentOfCurrentInstruction (contexts : List InstructionContext) (current : InstructionContext) :
    Option (Except FramePanic (Option Pubkey)) := do
  let currentFrameIdx ← currentFrameIdx contexts current
  let currentFrame ← (frames contexts)[currentFrameIdx]?
  pure (findProgramIdOfParentFrame (frames contexts) currentFrame)

theorem getElem?_frames {contexts : List InstructionContext} {k : Nat} :
    (frames contexts)[k]? = Option.map (fun ctx => ⟨ctx, k⟩) contexts[k]? := by
  rw [frames, List.getElem?_mapIdx]

/-- Each frame's index is its place in the frames. -/
theorem index_of_getElem? {contexts : List InstructionContext} {k : Nat} {frame : InstructionContextFrame}
    (found : (frames contexts)[k]? = some frame) : getIndex frame = k := by
  rw [getElem?_frames] at found
  obtain ⟨ctx, -, rfl⟩ := Option.map_eq_some_iff.mp found
  rfl

end InstructionContextFrames

/-! ## Depth-first traces -/

/-- A trace of call trees listed depth first, by the nesting levels of its frames: the first
frame is a top-level instruction, and a frame is at most one level deeper than the one
before it. -/
structure DepthFirst (levels : List Nat) : Prop where
  first : ∀ level ∈ levels.head?, level = 0
  step : ∀ k previous next, levels[k]? = some previous → levels[k + 1]? = some next → next ≤ previous + 1

/-- Frame `j` invoked frame `i`: it is the last frame before `i` one level up. -/
def IsInvoker (levels : List Nat) (i j : Nat) : Prop :=
  j < i ∧ ∃ level, levels[j]? = some level ∧ levels[i]? = some (level + 1) ∧
    ∀ k, j < k → k < i → levels[k]? ≠ some level

/-- A top-level instruction that invokes one other is listed depth first. -/
theorem DepthFirst.one_call : DepthFirst [0, 1] := by
  constructor
  · intro level first
    cases first
    rfl
  · intro k previous next current following
    match k with
    | 0 =>
      cases current
      cases following
      decide
    | k + 1 => simp at following

/-! ## The walk back -/

section Walk

variable {frames : List F}

theorem getElem?_levels {k : Nat} :
    (frames.map getNestingLevel)[k]? = frames[k]?.map getNestingLevel := List.getElem?_map ..

/-- Walking back from `n` towards frame 0 past frames all deeper than the current one at
`level + 1`, the walk stops at a frame at `level`: the frame after it is at least as deep as
the current one, and a depth-first trace climbs one level at a time. -/
theorem scanParent_finds_invoker (depthFirst : DepthFirst (frames.map getNestingLevel)) {i level : Nat}
    (current : (frames.map getNestingLevel)[i]? = some (level + 1)) :
    ∀ n ≤ i, (∀ k, n ≤ k → k < i → ∀ other, (frames.map getNestingLevel)[k]? = some other → level + 1 ≤ other) →
      ∃ j < n, ∃ parent, frames[j]? = some parent ∧ getNestingLevel parent = level ∧
        scanParent frames (level + 1) n = .ok (some parent) ∧
        ∀ k, j < k → k < i → ∀ other, (frames.map getNestingLevel)[k]? = some other → level + 1 ≤ other := by
  have inTrace : i < (frames.map getNestingLevel).length := (List.getElem?_eq_some_iff.mp current).1
  intro n
  induction n with
  | zero =>
    -- the first frame is at level 0, above the current one, and no walk gets past it
    intro _ deeper
    obtain ⟨first, firstAt⟩ : ∃ first, (frames.map getNestingLevel)[0]? = some first :=
      ⟨_, List.getElem?_eq_getElem (by omega)⟩
    have top : first = 0 := depthFirst.first first (by rw [List.head?_eq_getElem?]; exact firstAt)
    rcases Nat.eq_zero_or_pos i with rfl | later
    · rw [firstAt, top] at current
      cases current
    · have := deeper 0 le_rfl later first firstAt
      omega
  | succ n ih =>
    intro before deeper
    obtain ⟨frame, frameAt⟩ : ∃ frame, frames[n]? = some frame :=
      ⟨_, List.getElem?_eq_getElem (by rw [List.length_map] at inTrace; omega)⟩
    have frameLevel : (frames.map getNestingLevel)[n]? = some (getNestingLevel frame) := by
      rw [getElem?_levels, frameAt]
      rfl
    obtain ⟨next, nextAt⟩ : ∃ next, (frames.map getNestingLevel)[n + 1]? = some next :=
      ⟨_, List.getElem?_eq_getElem (by omega)⟩
    -- the frame after `n` is the current one or one of the deeper frames walked past
    have nextDeep : level + 1 ≤ next := by
      rcases Nat.lt_or_eq_of_le before with walked | rfl
      · exact deeper (n + 1) le_rfl walked next nextAt
      · rw [current] at nextAt
        cases nextAt
        exact le_rfl
    have climb := depthFirst.step n _ _ frameLevel nextAt
    rw [scanParent, frameAt]
    dsimp only
    by_cases up : getNestingLevel frame < level + 1
    · rw [if_pos up, if_pos (by omega)]
      exact ⟨n, Nat.lt_succ_self n, frame, frameAt, by omega, rfl,
        fun k after walked other otherAt => deeper k (by omega) walked other otherAt⟩
    · rw [if_neg up]
      have deeper' : ∀ k, n ≤ k → k < i → ∀ other, (frames.map getNestingLevel)[k]? = some other →
          level + 1 ≤ other := by
        intro k start walked other otherAt
        rcases Nat.lt_or_eq_of_le start with later | rfl
        · exact deeper k later walked other otherAt
        · rw [frameLevel] at otherAt
          cases otherAt
          omega
      obtain ⟨j, earlier, found⟩ := ih (by omega) deeper'
      exact ⟨j, Nat.lt_succ_of_lt earlier, found⟩

/-- In a depth-first trace whose frames carry their own index, `find_parent_frame` finds
nothing for a top-level frame and the caller for any other, and never trips its assertion. -/
theorem findParentFrame_eq_invoker (depthFirst : DepthFirst (frames.map getNestingLevel))
    (indexed : ∀ k frame, frames[k]? = some frame → getIndex frame = k) {i : Nat} {frame : F}
    (found : frames[i]? = some frame) :
    (getNestingLevel frame = 0 → findParentFrame frames frame = .ok none) ∧
      (0 < getNestingLevel frame → ∃ j parent, frames[j]? = some parent ∧
        IsInvoker (frames.map getNestingLevel) i j ∧ findParentFrame frames frame = .ok (some parent)) := by
  constructor
  · intro top
    simp only [findParentFrame, top, if_true]
  · intro positive
    obtain ⟨level, deep⟩ : ∃ level, getNestingLevel frame = level + 1 := ⟨_, (Nat.succ_pred_eq_of_pos positive).symm⟩
    have current : (frames.map getNestingLevel)[i]? = some (level + 1) := by
      rw [getElem?_levels, found, ← deep]
      rfl
    obtain ⟨j, earlier, parent, parentAt, parentLevel, scanned, between⟩ :=
      scanParent_finds_invoker depthFirst current i le_rfl (fun k after before => absurd before (by omega))
    refine ⟨j, parent, parentAt, ⟨earlier, level, ?_, current, ?_⟩, ?_⟩
    · rw [getElem?_levels, parentAt, ← parentLevel]
      rfl
    · intro k after before same
      have := between k after before level same
      omega
    · simp only [findParentFrame, deep, Nat.add_one_ne_zero, if_false, indexed i frame found]
      exact scanned

end Walk

/-! ## The current instruction -/

namespace InstructionContextFrames

end InstructionContextFrames

/-- For the frames of any instruction trace listed depth first, the parent `find_parent_frame`
gives a frame is its caller, and none for a top-level one; the "cannot skip a frame"
assertion never fails. -/
theorem find_parent_frame_returns_invoker (contexts : List InstructionContext)
    (depthFirst : DepthFirst ((InstructionContextFrames.frames contexts).map getNestingLevel)) (i : Nat)
    (frame : InstructionContextFrame) (found : (InstructionContextFrames.frames contexts)[i]? = some frame) :
    (getNestingLevel frame = 0 → findParentFrame (InstructionContextFrames.frames contexts) frame = .ok none) ∧
      (0 < getNestingLevel frame → ∃ j parent, (InstructionContextFrames.frames contexts)[j]? = some parent ∧
        IsInvoker ((InstructionContextFrames.frames contexts).map getNestingLevel) i j ∧
        findParentFrame (InstructionContextFrames.frames contexts) frame = .ok (some parent)) :=
  findParentFrame_eq_invoker depthFirst (fun _ _ => InstructionContextFrames.index_of_getElem?) found

/-- A top-level instruction that invokes one other: the invoked frame's parent is frame 0. -/
theorem find_parent_frame_returns_invoker_of_one_call :
    DepthFirst ((InstructionContextFrames.frames [⟨1, none⟩, ⟨2, none⟩]).map getNestingLevel) ∧
      ((getNestingLevel (⟨⟨2, none⟩, 1⟩ : InstructionContextFrame) = 0 →
          findParentFrame (InstructionContextFrames.frames [⟨1, none⟩, ⟨2, none⟩]) ⟨⟨2, none⟩, 1⟩ = .ok none) ∧
        (0 < getNestingLevel (⟨⟨2, none⟩, 1⟩ : InstructionContextFrame) → ∃ j parent,
          (InstructionContextFrames.frames [⟨1, none⟩, ⟨2, none⟩])[j]? = some parent ∧
          IsInvoker ((InstructionContextFrames.frames [⟨1, none⟩, ⟨2, none⟩]).map getNestingLevel) 1 j ∧
          findParentFrame (InstructionContextFrames.frames [⟨1, none⟩, ⟨2, none⟩]) ⟨⟨2, none⟩, 1⟩ =
            .ok (some parent))) := by
  have depthFirst : DepthFirst ((InstructionContextFrames.frames [⟨1, none⟩, ⟨2, none⟩]).map getNestingLevel) :=
    DepthFirst.one_call
  exact ⟨depthFirst, find_parent_frame_returns_invoker _ depthFirst 1 _ rfl⟩

end EphemeralValidator.Magicblock
