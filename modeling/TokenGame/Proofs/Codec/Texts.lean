import TokenGame.Command.Run
import TokenGame.Proofs.Codec.Model
import TokenGame.Proofs.FileTree

/-! Models survive being written, as texts and to files, in both formats. Reading is the inverse
of writing for texts; for files it is enough that the text is what a path holds after it was
written there. -/
namespace TokenGame

namespace Model

theorem toText_injective (format : Format) : Function.Injective (toText · format) := by
  intro m other same
  have read := ofText_toText m format
  rw [show m.toText format = other.toText format from same, ofText_toText] at read
  cases read
  rfl

/-- Where a model was written, it is read; only the null device keeps nothing. -/
def KeptAt (m : Model) (p : Path) : Prop :=
  ∀ files : FileTree,
    let o := Action.performAll { files } (Command.writeModel m p)
    o.succeeds = true →
      ofFile p (o.files.read p) = .ok m ∨ o.files.isNull p = true

theorem keptAt (m : Model) (p : Path) : m.KeptAt p := by
  intro files o done
  -- The file is written last, after its directory has been made.
  refine (Action.read_performAll rfl done).imp_left fun read => ?_
  rw [read]
  exact ofText_toText m (Format.ofPath p)

/-- Every model, valid or not, is read back from its JSON text. So different models have
different texts, and a model that was written to a file of that format is read back from it,
unless the file is the null device. -/
theorem json_text_round_trip :
    (∀ m : Model, ofText .json (m.toText .json) = .ok m) ∧
      Function.Injective (fun m : Model => m.toText .json) ∧
      ∀ (m : Model) (p : Path), Format.ofPath p = .json → m.KeptAt p :=
  ⟨fun m => ofText_toText m .json, toText_injective .json, fun m p _ => m.keptAt p⟩

/-- Ids and labels that need escapes, the largest count, and an arc from nowhere to nowhere. -/
def awkward : Model where
  places := [⟨"a \"b\"\n", some "", 18446744073709551615⟩, ⟨"\x00\u200b", none, 0⟩]
  transitions := [⟨"t", some "\\ é"⟩]
  arcs := [⟨"", "x", "x", 0⟩]

/-- What a system with an empty directory to work in holds after the model was written there. -/
def awkwardAt (p : Path) : Outcome :=
  Action.performAll { files := .empty } (Command.writeModel awkward p)

theorem json_text_round_trip_awkward :
    Format.ofPath ⟨"out/net.json"⟩ = .json ∧ (awkwardAt ⟨"out/net.json"⟩).succeeds = true ∧
      ofFile ⟨"out/net.json"⟩ ((awkwardAt ⟨"out/net.json"⟩).files.read ⟨"out/net.json"⟩) =
        .ok awkward := by
  have json : Format.ofPath ⟨"out/net.json"⟩ = .json := by decide +kernel
  have done : (awkwardAt ⟨"out/net.json"⟩).succeeds = true := by decide +kernel
  have file : (awkwardAt ⟨"out/net.json"⟩).files.isNull ⟨"out/net.json"⟩ ≠ true := by
    decide +kernel
  exact ⟨json, done, (json_text_round_trip.2.2 awkward _ json .empty done).resolve_right file⟩

/-- Every model, valid or not, is read back from its RON text. So different models have different
texts, a model that was written to a file of that format is read back from it, unless the file is
the null device, and a JSON text that is converted to RON and back is the same again. -/
theorem ron_text_round_trip :
    (∀ m : Model, ofText .ron (m.toText .ron) = .ok m) ∧
      Function.Injective (fun m : Model => m.toText .ron) ∧
      (∀ (m : Model) (p : Path), Format.ofPath p = .ron → m.KeptAt p) ∧
      ∀ m : Model, (do
        let read ← ofText .json (m.toText .json)
        let converted ← ofText .ron (read.toText .ron)
        return converted.toText .json) = .ok (m.toText .json) := by
  refine ⟨fun m => ofText_toText m .ron, toText_injective .ron, fun m p _ => m.keptAt p, ?_⟩
  intro m
  rw [ofText_toText]
  simp [bind, Except.bind, ofText_toText, pure, Except.pure]

theorem ron_text_round_trip_awkward :
    Format.ofPath ⟨"./Net.RON"⟩ = .ron ∧ (awkwardAt ⟨"./Net.RON"⟩).succeeds = true ∧
      ofFile ⟨"./Net.RON"⟩ ((awkwardAt ⟨"./Net.RON"⟩).files.read ⟨"./Net.RON"⟩) =
        .ok awkward := by
  have ron : Format.ofPath ⟨"./Net.RON"⟩ = .ron := by decide +kernel
  have done : (awkwardAt ⟨"./Net.RON"⟩).succeeds = true := by decide +kernel
  have file : (awkwardAt ⟨"./Net.RON"⟩).files.isNull ⟨"./Net.RON"⟩ ≠ true := by decide +kernel
  exact ⟨ron, done, (ron_text_round_trip.2.2.1 awkward _ ron .empty done).resolve_right file⟩

end Model

end TokenGame
