import Nodepool.Effect.Footprint
import Nodepool.Zk.Images

/-!
`StateMachineProvider.cleanupLeakedResources` of
`nodepool/driver/statemachine.py`: one scan over the resources that the adapter
lists. A resource is deleted if its node or upload was not known in two scans in
succession.
-/

namespace Nodepool

open Effect Method

/-- `known_nodes` and `known_uploads` of one scan. -/
structure Known where
  nodes : List String
  uploads : List UploadKey

/-- An optional text that is neither `None` nor empty. -/
def given (text : Option String) : Option String := text.filter (· ≠ "")

namespace StateMachineProvider

variable {σ : Type} (provider : String)

def knownNodes : LauncherM σ (List String) := do
  let nodes ← ZooKeeper.nodeIterator
  pure ((nodes.filter fun n => n.2.provider = some provider).map fun n => sequenceName n.1)

def knownUploads : LauncherM σ (List UploadKey) := do
  let uploads ← ZooKeeper.getProviderUploads provider
  pure (uploads.map fun path => (some path.buildId, path.number))

/-- Delete a leaked resource; an exception is logged. -/
def deleteLeaked (r : Resource) : LauncherM σ Unit :=
  tryCatch (call (.deleteResource r)) fun _ => call (.log "Unable to delete leaked resource")

/-- The part of the scan that looks at the node of a resource. -/
def checkNode (known : Known) (newly : Leaks) (r : Resource) : LauncherM σ Leaks :=
  match given r.metadata.nodeId with
  | none => pure newly
  | some nodeId =>
      if nodeId ∈ known.nodes then pure newly
      else do
        let leaks ← call .possiblyLeaked
        -- seen twice now, so it's not a race condition
        when (nodeId ∈ leaks.nodes) (deleteLeaked r)
        pure { newly with nodes := newly.nodes.insert nodeId r }

/-- The part of the scan that looks at the upload of a resource. -/
def checkUpload (known : Known) (newly : Leaks) (r : Resource) : LauncherM σ Leaks :=
  match given r.metadata.uploadId with
  | none => pure newly
  | some uploadId =>
      let key := (r.metadata.buildId, uploadId)
      if key ∈ known.uploads then pure newly
      else do
        let leaks ← call .possiblyLeaked
        when (key ∈ leaks.uploads) (deleteLeaked r)
        pure { newly with uploads := newly.uploads.insert key r }

def checkResource (known : Known) (newly : Leaks) (r : Resource) : LauncherM σ Leaks :=
  if r.metadata.providerName ≠ some provider then pure newly
  else do
    let newly ← checkNode known newly r
    checkUpload known newly r

/-- The resources come from a generator, which asks the cloud for one page after
the other while the scan is under way. -/
def checkPage (known : Known) (newly : Leaks) (page : Nat) : LauncherM σ Leaks := do
  let resources ← call (.listPage page)
  fold (checkResource provider known) resources newly

def cleanupLeakedResources : LauncherM σ Unit := do
  let nodes ← knownNodes provider
  let uploads ← knownUploads provider
  let pages ← call .listResources
  let newly ← fold (checkPage provider ⟨nodes, uploads⟩) pages Leaks.empty
  call (.assignPossiblyLeaked newly)

end StateMachineProvider

/-! ### What the scan reads first -/

/-- The calls that read the stored nodes and uploads. -/
def Call.readsRecords : Call → Prop
  | .getNodeIds | .getNode _ | .getImageNames | .getBuildIds _ | .getBuildProviders _ _
  | .getUploadNumbers _ _ _ | .getImageUpload _ => True
  | _ => False

section Footprint

variable {σ γ : Type} {P : Call → Prop} {π : σ → γ} (hP : ∀ c, Call.readsRecords c → P c)
include hP

theorem ZooKeeper.getUploads_within (image buildId provider : String) :
    Within P π (ZooKeeper.getUploads image buildId provider : LauncherM σ _) :=
  .bind (.perform (hP _ (by trivial))) fun _ =>
    .gather (fun _ => .bind (.perform (hP _ (by trivial))) fun _ => .pure) _

theorem ZooKeeper.getProviderUploads_within (provider : String) :
    Within P π (ZooKeeper.getProviderUploads provider : LauncherM σ _) :=
  .bind (.perform (hP _ (by trivial))) fun _ =>
    .gather (fun _ => .bind (.perform (hP _ (by trivial))) fun _ =>
    .gather (fun _ => .bind (.perform (hP _ (by trivial))) fun _ =>
      .ite (ZooKeeper.getUploads_within hP _ _ _) .pure) _) _

namespace StateMachineProvider

theorem knownNodes_within (provider : String) :
    Within P π (knownNodes provider : LauncherM σ _) :=
  .bind (.bind (.perform (hP _ (by trivial))) fun _ =>
    .gather (fun _ => .bind (.perform (hP _ (by trivial))) fun _ => .pure) _) fun _ => .pure

theorem knownUploads_within (provider : String) :
    Within P π (knownUploads provider : LauncherM σ _) :=
  .bind (ZooKeeper.getProviderUploads_within hP provider) fun _ => .pure

end StateMachineProvider

end Footprint

end Nodepool
