import Stylebook.Proofs.Variant.Again

/-! States of a variant. The block of a state is the variant of the first block by this state, made as a variant without
    states is; it does not depend on the states before it. So states can be appended in several goes, and an empty block
    adds nothing, not even the glue. -/

namespace Stylebook
namespace Variant

/-- What a block adds behind others: the glue and the block, or nothing where it is empty. -/
def addition (glue block : Text) : Text := if block.isEmpty then [] else glue ++ block

section
variable (s : Settings) (isPresentation : Bool) (markup : Text) (base : Option Text)

/-- The block of a state: the variant by the selector of the state, without further states. -/
def blockOf (state : State) : Except Markup.Rejected Text :=
  apply s isPresentation (some s.config.statesModifyUnique) markup base (state.state.getD []) []

theorem stateBlock_eq (state : State) : stateBlock s isPresentation markup base state =
    (blockOf s isPresentation markup base state).map (addition s.config.statesGlue) := by
  rw [stateBlock, blockOf, apply_nil, Option.getD_some]
  cases modified s isPresentation s.config.statesModifyUnique markup base (state.state.getD []) <;> rfl

theorem stateBlocks_eq_mapM (states : List State) : stateBlocks s isPresentation markup base states =
    (states.mapM (blockOf s isPresentation markup base)).map (·.flatMap (addition s.config.statesGlue)) := by
  induction states with
  | nil => rfl
  | cons state states ih =>
    rw [stateBlocks, stateBlock_eq, ih, List.mapM_cons]
    cases blockOf s isPresentation markup base state with
    | error e => rfl
    | ok block => cases states.mapM (blockOf s isPresentation markup base) <;> rfl

theorem withStates_eq_mapM (states : List State) : withStates s isPresentation markup base states = do
    let blocks ← states.mapM (blockOf s isPresentation markup base)
    return markup ++ blocks.flatMap (addition s.config.statesGlue) := by
  rw [withStates, stateBlocks_eq_mapM]
  cases states.mapM (blockOf s isPresentation markup base) <;> rfl

theorem withStates_append (before behind : List State) :
    withStates s isPresentation markup base (before ++ behind) = do
      let front ← withStates s isPresentation markup base before
      let back ← withStates s isPresentation markup base behind
      return front ++ back.drop markup.length := by
  rw [withStates_eq_mapM, withStates_eq_mapM, withStates_eq_mapM, List.mapM_append]
  cases before.mapM (blockOf s isPresentation markup base) with
  | error e => rfl
  | ok front =>
    cases behind.mapM (blockOf s isPresentation markup base) with
    | error e => rfl
    | ok back => simp [bind, Except.bind, pure, Except.pure]

end

/-- A variant with states is its first block, which is the variant without states, with the states of the first block
    behind it. Each state adds the glue and a block of its own, or nothing where this is empty, and the block is made from
    the first block alone. So the states can be split anywhere: behind what the front ones give comes what the others
    add to the same first block. -/
theorem apply_states_apart (s : Settings) (isPresentation : Bool) (base : Option Text) :
    (∀ unique markup modifier states, apply s isPresentation unique markup base modifier states = do
      let first ← apply s isPresentation unique markup base modifier []
      withStates s isPresentation first base states) ∧
    (∀ first states, withStates s isPresentation first base states = do
      let blocks ← states.mapM (blockOf s isPresentation first base)
      return first ++ blocks.flatMap (addition s.config.statesGlue)) ∧
    ∀ first before behind, withStates s isPresentation first base (before ++ behind) = do
      let front ← withStates s isPresentation first base before
      let back ← withStates s isPresentation first base behind
      return front ++ back.drop first.length := by
  refine ⟨fun unique markup modifier states => ?_, fun first => ?_, fun first => ?_⟩
  · rw [apply_nil]
    rfl
  · exact withStates_eq_mapM s isPresentation first base
  · exact withStates_append s isPresentation first base

end Variant
end Stylebook
