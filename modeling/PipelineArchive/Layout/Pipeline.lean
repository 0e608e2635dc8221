import PipelineArchive.Layout.Signature

/-!
# Layouts of pipelines

The signatures of a pipeline are laid out in the order of their binding indices, each after
those before it.
-/

set_option autoImplicit false

namespace PipelineArchive

/-- The signatures of a pipeline in the order they are bound; signatures of one index stay in
the order given. -/
def Signature.inBindingOrder (signatures : List Signature) : List Signature :=
  signatures.mergeSort fun a b => a.bindingIndex ≤ b.bindingIndex

/-- The layouts of all signatures of a pipeline on one backend. -/
structure PipelineLayout where
  backend : Backend
  signatures : List SignatureLayout
  deriving DecidableEq, Repr

namespace PipelineLayout

/-- Lays out signatures one after another. -/
def allocateAll (backend : Backend) :
    Counters → List Signature → Except ArchiveError (List SignatureLayout)
  | _, [] => .ok []
  | counters, signature :: rest =>
      match SignatureLayout.allocate backend signature counters with
      | .error e => .error e
      | .ok (layout, counters) =>
          match allocateAll backend counters rest with
          | .error e => .error e
          | .ok layouts => .ok (layout :: layouts)

/-- Lays out the signatures of a pipeline, which may be given in any order. -/
def ofSignatures (backend : Backend) (signatures : List Signature) :
    Except ArchiveError PipelineLayout :=
  match allocateAll backend {} (Signature.inBindingOrder signatures) with
  | .ok layouts => .ok ⟨backend, layouts⟩
  | .error e => .error e

/-- All bindings in the order of the signatures. -/
def bindings (l : PipelineLayout) : List LayoutBinding := l.signatures.flatMap (·.bindings)

/-- The binding of a reflected resource. -/
def find? (l : PipelineLayout) (name : String) (resourceType : ResourceType) :
    Option LayoutBinding :=
  l.signatures.findSome? fun signature => signature.find? name resourceType

/-- The identity of a layout: a hash over the hashes of its signature layouts. -/
def id (l : PipelineLayout) : UInt64 :=
  Hash.content (l.signatures.flatMap fun signature => Bytes.ofU64 (contentHash signature))

end PipelineLayout

end PipelineArchive
