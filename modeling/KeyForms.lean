import KeyForms.Import
import KeyForms.KeyMap.Edit
import KeyForms.Provider.Native
import KeyForms.Provider.Recording
import KeyForms.Proofs.Octets
import KeyForms.Proofs.Cbor.RoundTrip
import KeyForms.Proofs.KeyMap.Entering
import KeyForms.Proofs.KeyMap.RoundTrip
import KeyForms.Proofs.Der.RoundTrip
import KeyForms.Proofs.SubjectInfo.RoundTrip
import KeyForms.Proofs.SubjectInfo.Sizes
import KeyForms.Proofs.SubjectInfo.Injective
import KeyForms.Proofs.Curve.Coordinates
import KeyForms.Proofs.KeyMap.StatedPoint
import KeyForms.Proofs.Import.Native
import KeyForms.Proofs.Import.Point
import KeyForms.Proofs.Cbor.Shortest
import KeyForms.Proofs.KeyMap.Canonical
import KeyForms.Proofs.KeyMap.Kept
import KeyForms.Proofs.Magnitude
import KeyForms.Proofs.Import.Identity
import KeyForms.Proofs.Import.Requests
import KeyForms.Proofs.Import.Availability
import KeyForms.Proofs.Import.Events
import KeyForms.Proofs.Cbor.Spelling
import KeyForms.Proofs.KeyMap.Editing
import KeyForms.Proofs.KeyMap.Spelling
import KeyForms.Proofs.Cbor.Spelled
import KeyForms.Proofs.Cbor.Prompt
import KeyForms.Proofs.KeyMap.Extension
import KeyForms.Proofs.KeyMap.Extras
import KeyForms.Proofs.Import.Extras
import KeyForms.Proofs.Import.Separation
import KeyForms.Proofs.Import.Numbers
import KeyForms.Proofs.RawPoint.Shapes
import KeyForms.Proofs.RawPoint.Integers
import KeyForms.Proofs.Der.Delimiting
import KeyForms.Proofs.Import.Causes
import KeyForms.Proofs.Import.Ed25519
import KeyForms.Proofs.Curve.Shortened
