import ShapeVM.Inspect
import ShapeVM.Function.Json
import ShapeVM.Json.Codec
import ShapeVM.Proofs.Shape.Offsets
import ShapeVM.Proofs.Shape.Table
import ShapeVM.Proofs.Properties.PropertyList
import ShapeVM.Proofs.Properties.Store
import ShapeVM.Proofs.Heap.Access
import ShapeVM.Proofs.Cache.Access
import ShapeVM.Proofs.Frame.ArgumentList
import ShapeVM.Proofs.Heap.Run
import ShapeVM.Proofs.Heap.Evaluation
import ShapeVM.Proofs.Frame.ArgumentsObject
import ShapeVM.Proofs.Frame.Bindings
import ShapeVM.Proofs.Heap.Effect
import ShapeVM.Proofs.Heap.WellFormed
import ShapeVM.Proofs.Cache.Transparency
import ShapeVM.Proofs.Properties.Refinement
import ShapeVM.Proofs.Frame.Touch
import ShapeVM.Proofs.Frame.AfterOperation
import ShapeVM.Proofs.Frame.Call
import ShapeVM.Proofs.Heap.Progress
import ShapeVM.Proofs.Frame.CopyOnWrite
import ShapeVM.Proofs.Frame.Aliasing
import ShapeVM.Proofs.Shape.KeyOrder
import ShapeVM.Proofs.Heap.HandedOut
import ShapeVM.Proofs.Cache.AfterAccess
import ShapeVM.Proofs.Cache.Uses
import ShapeVM.Proofs.Cache.Account
import ShapeVM.Proofs.Heap.Bounds
import ShapeVM.Proofs.Function.Scope
import ShapeVM.Proofs.Frame.Names
import ShapeVM.Proofs.Shape.Limits
import ShapeVM.Proofs.Properties.Layout
import ShapeVM.Proofs.Heap.Layouts
import ShapeVM.Proofs.Heap.TableAccount
import ShapeVM.Proofs.Frame.Constants
import ShapeVM.Proofs.Frame.Publication
import ShapeVM.Proofs.Heap.Publication
import ShapeVM.Proofs.Heap.Forcing
import ShapeVM.Proofs.Properties.View
import ShapeVM.Proofs.Frame.View
import ShapeVM.Proofs.Heap.View
import ShapeVM.Proofs.Heap.Laws
import ShapeVM.Proofs.Heap.Separation
import ShapeVM.Proofs.Shape.Population
import ShapeVM.Proofs.Heap.Population
import ShapeVM.Proofs.Json.StringLiteral
import ShapeVM.Proofs.Json.Number
import ShapeVM.Proofs.Json.Token
import ShapeVM.Proofs.Json.Document
import ShapeVM.Proofs.Json.Text
import ShapeVM.Proofs.Json.Format
import ShapeVM.Proofs.Json.Record
import ShapeVM.Proofs.Json.RoundTrip
import ShapeVM.Proofs.Json.Codec
import ShapeVM.Proofs.Function.Json
import ShapeVM.Proofs.Function.Reading
import ShapeVM.Proofs.Function.Members
import ShapeVM.Proofs.Frame.Elements
import ShapeVM.Proofs.Frame.Positions
import ShapeVM.Proofs.Frame.Rebinding
import ShapeVM.Proofs.Properties.Apart
import ShapeVM.Proofs.Heap.Presence
import ShapeVM.Proofs.Heap.Budget
import ShapeVM.Proofs.Heap.Locations
import ShapeVM.Proofs.Frame.Admission
import ShapeVM.Proofs.Shape.Chain
import ShapeVM.Proofs.Heap.Chains
