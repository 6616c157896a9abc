import PodMachines.Doc.Decode

/-! Records whose values are mapped. Main statement: they decode to the mapped values, and fail as before. -/

namespace PodMachines.Doc.Record

/-- The record whose value is made so of that of another. -/
def map {α γ : Type} (f : α → γ) : Record α → Record γ
  | .done value => .done (f value)
  | .field name absent read found rest => .field name absent read found (rest.map fun make b => f (make b))

section
variable {α γ : Type} (f : α → γ) (record : Record α)

theorem offer_map (doc : Events) (key : String) (events : List Event) :
    (record.map f).offer doc key events =
      (record.offer doc key events).map fun x => x.map fun (r, left) => (r.map f, left) := by
  induction record generalizing γ with
  | done value => rfl
  | field name absent read found rest ih =>
    simp only [map, offer]
    split
    · cases found with
      | some b => rfl
      | none => cases read doc events <;> rfl
    · rw [ih]
      rcases rest.offer doc key events with e | (_ | _) <;> rfl

theorem finish_map : (record.map f).finish = record.finish.map f := by
  induction record generalizing γ with
  | done value => rfl
  | field name absent read found rest ih =>
    simp only [map, finish, ih]
    cases found with
    | some b => cases rest.finish <;> rfl
    | none => cases absent <;> cases rest.finish <;> rfl

theorem entries_map (doc : Events) (most : Nat) (events : List Event) :
    (record.map f).entries doc most events = (record.entries doc most events).map (Prod.map f id) := by
  induction most generalizing record events with
  | zero =>
    unfold entries
    split
    · rw [finish_map]
      cases record.finish <;> rfl
    · rfl
    · contradiction
  | succ most ih =>
    unfold entries
    split
    · rw [finish_map]
      cases record.finish <;> rfl
    · contradiction
    · rename_i hmost _
      cases hmost
      cases Decode.text doc _ with
      | error e => rfl
      | ok x =>
        obtain ⟨key, left⟩ := x
        dsimp only
        rw [offer_map]
        rcases record.offer doc key left with e | (_ | ⟨record, left⟩)
        · rfl
        · dsimp only [Except.map, Option.map]
          cases skipValue 0 left with
          | none => rfl
          | some left => exact ih record left
        · exact ih record left

theorem positional_map (doc : Events) (events : List Event) :
    (record.map f).positional doc events = (record.positional doc events).map (Prod.map f id) := by
  induction record generalizing γ events with
  | done value =>
    rcases events with _ | ⟨event, left⟩
    · rfl
    · cases event <;> rfl
  | field name absent read found rest ih =>
    unfold map positional
    split
    · rw [ih]
      cases rest.positional doc _ <;> rfl
    · rfl
    · cases read doc events with
      | error e => rfl
      | ok x =>
        dsimp only [bind, Except.bind]
        rw [ih]
        cases rest.positional doc _ <;> rfl

/-- A record whose value is mapped decodes wherever the record does, to the mapped value. -/
theorem decode_map (doc : Events) (events : List Event) :
    (record.map f).decode doc events = (record.decode doc events).map (Prod.map f id) := by
  unfold decode
  split
  · exact entries_map f record doc _ _
  · split
    · exact positional_map f record doc _
    · rfl
  · split
    · rw [finish_map]
      cases record.finish <;> rfl
    · rfl
  · rfl

end
end PodMachines.Doc.Record
