import TokenGame.Codec.Findings
import TokenGame.Json.Printer
import TokenGame.Report

/-! How reports are read and written. -/
namespace TokenGame

variable {δ : Type} [Document δ]

/-- Surplus nanoseconds are carried over, as long as the seconds fit a word. -/
def Duration.decode (d : δ) : Decoded Duration := do
  let f ← Document.record "Duration" [["secs"], ["nanos"]] d
  let (seconds, nanoseconds) ← f.complete <| Prod.mk
    <$> f.required 0 Document.word
    <*> f.required 1 Document.word
  if UInt32.size ≤ nanoseconds ∨ Count.limit ≤ seconds + nanoseconds / 1000000000 then throw .mismatch
  return ⟨seconds + nanoseconds / 1000000000, nanoseconds % 1000000000⟩

def Report.decode (d : δ) : Decoded Report := do
  let f ← Document.record "Report" [["net_name"], ["analysis_time"], ["result"]] d
  f.complete <| Report.mk
    <$> f.required 0 Document.text
    <*> f.required 1 Duration.decode
    <*> f.required 2 Findings.decode

/-! ### JSON -/

def Duration.toJson (d : Duration) : Json :=
  .record [("secs", .natural d.seconds), ("nanos", .natural d.nanoseconds)]

def Report.toJson (r : Report) : Json :=
  .record [("net_name", .string r.netName), ("analysis_time", r.time.toJson),
    ("result", r.result.toJson)]

end TokenGame
