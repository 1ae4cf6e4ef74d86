import PropertyToolkit.Proofs.Fallible
import PropertyToolkit.Yaml.Typed

/-!
The kinds of values that the tags of scalars give. Only the tag of a text gives a text, which is the
one that was read, and only the tag of an integer gives an integer.
-/

set_option autoImplicit false

namespace PropertyToolkit.Yaml

/-- A value is of the kind that a tag gives to a text. -/
inductive IsOfKind (t : Text) : Tag → Value → Prop where
  | text : IsOfKind t .str (.text t)
  | null : IsOfKind t .null .null
  | int (n : Int) : IsOfKind t .int (.int n)
  | float (d : Double) : IsOfKind t .float (.float d)
  | bool (b : Bool) : IsOfKind t .bool (.bool b)
  | date (day : Date) : IsOfKind t .timestamp (.date day)
  | dateTime (moment : DateTime) : IsOfKind t .timestamp (.dateTime moment)
  | bytes (content : List UInt8) : IsOfKind t .binary (.bytes content)

theorem Timestamp.isOfKind_of_value {t : Text} {timestamp : Timestamp} {value : Value}
    (read : timestamp.value = .ok value) : IsOfKind t .timestamp value := by
  unfold Timestamp.value at read
  split at read
  · obtain ⟨day, -, rfl⟩ := map_eq_ok_iff.1 read
    exact .date day
  · obtain ⟨offset, -, read⟩ := bind_eq_ok_iff.1 read
    obtain ⟨day, -, read⟩ := bind_eq_ok_iff.1 read
    obtain ⟨clock, -, read⟩ := bind_eq_ok_iff.1 read
    cases read
    exact .dateTime _

theorem isOfKind_of_timestampValue {t : Text} {value : Value}
    (read : timestampValue t = .ok value) : IsOfKind t .timestamp value := by
  unfold timestampValue at read
  split at read
  · cases read
  · exact Timestamp.isOfKind_of_value (mapError_eq_ok_iff.1 read)

theorem isOfKind_of_binaryValue {t : Text} {value : Value} (read : binaryValue t = .ok value) :
    IsOfKind t .binary value := by
  unfold binaryValue at read
  split at read
  · cases read
  · cases read
    exact .bytes _

theorem isOfKind_of_scalarValue {tag : Tag} {own : Bool} {t : Text} {value : Value}
    (read : scalarValue tag own t = .ok value) : IsOfKind t tag value := by
  cases tag with
  | str =>
    cases read
    exact .text
  | null =>
    cases read
    exact .null
  | int =>
    obtain ⟨n, -, rfl⟩ := map_eq_ok_iff.1 read
    exact .int n
  | float =>
    obtain ⟨d, -, rfl⟩ := map_eq_ok_iff.1 read
    exact .float d
  | bool =>
    obtain ⟨b, -, rfl⟩ := map_eq_ok_iff.1 read
    exact .bool b
  | timestamp =>
    unfold scalarValue at read
    cases own with
    | false => cases read
    | true => exact isOfKind_of_timestampValue read
  | binary => exact isOfKind_of_binaryValue read
  | _ => cases read

theorem eq_of_scalarValue_text {tag : Tag} {own : Bool} {s t : Text}
    (read : scalarValue tag own t = .ok (.text s)) : s = t := by
  cases isOfKind_of_scalarValue read
  rfl

end PropertyToolkit.Yaml
