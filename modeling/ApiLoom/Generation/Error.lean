import ApiLoom.Document.Writable

/-!
# Generation errors

The combinations that no template exists for.  A set of models without errors never
leads to one, but generation can still break off at a number that is too long to be
written.
-/

namespace ApiLoom

inductive GenerationError where
  | noCluster (model : String)
  | noSharedCluster
  | unknownModel (model : String)
  | ownershipOnQueue (field : String)
  | noFetchByKey (model : String)
  | unknownTarget (model field target : String)
  | notTraversable (model field target : String)
deriving DecidableEq, Repr

def GenerationError.message : GenerationError → String
  | noCluster model =>
    s!"Model '{model}' uses the relational engine but no relational cluster is declared."
  | noSharedCluster => "No relational cluster is declared for this model set."
  | unknownModel model => s!"Model '{model}' is not part of this compilation."
  | ownershipOnQueue field => s!"{field}: ownership cannot be verified for a queued source."
  | noFetchByKey model => s!"Cannot fetch '{model}' records by key."
  | unknownTarget model field target => s!"{model}.{field} targets unknown model '{target}'."
  | notTraversable model field target =>
    s!"{model}.{field}: third-party model '{target}' cannot be traversed."

/-- Why nothing is generated. -/
inductive GenerationFailure where
  | refused (error : GenerationError)
  | broken (fault : MessageFault)
deriving DecidableEq, Repr

end ApiLoom
