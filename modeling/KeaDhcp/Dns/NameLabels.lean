import KeaDhcp.Dns.Name
import KeaDhcp.Infra.Labels

/-!
# Names as lists of labels

The class invariant of `Name`: the data are the labels with their lengths in front and the root
label behind them, and the offsets are the positions of the labels.
-/

namespace Dns

open Infra

abbrev IsLabel (label : Label) : Prop := label ≠ [] ∧ label.length ≤ Name.maxLabellen

/-- A name is the representation of its labels, the root label not counted. -/
structure Name.Represents (name : Name) (labels : List Label) : Prop where
  ndata : name.ndata = encodeLabels labels ++ [0]
  offsets : name.offsets.map (·.toNat) = labelOffsets 0 (labels ++ [[]])
  length : name.length = name.ndata.length
  labelcount : name.labelcount = labels.length + 1
  label : ∀ label ∈ labels, label ≠ [] ∧ label.length ≤ Name.maxLabellen
  wire : name.length ≤ Name.maxWire

theorem Name.Represents.labelcount_le {name : Name} {labels : List Label}
    (h : name.Represents labels) : name.labelcount ≤ Name.maxLabels := by
  have htwo := two_mul_length_le fun label hl => (h.label label hl).1
  have hlength : name.length = (encodeLabels labels).length + 1 := by
    rw [h.length, h.ndata]
    simp
  have hwire := h.wire
  rw [h.labelcount]
  show labels.length + 1 ≤ 128
  have : name.length ≤ 255 := hwire
  omega

end Dns
