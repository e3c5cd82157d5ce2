import SpinFleet.Kube.Selector
/-!
# Volumes and mounts

A pod's volumes come from some thirty kinds of sources.  The operator makes only volumes of one
kind, files of a `Secret`; it passes on the others as the app's author wrote them.
-/
namespace SpinFleet

structure KeyToPath where
  key : String
  path : String
  mode : Option Int
deriving DecidableEq, Repr

namespace KeyToPath

def record : Record KeyToPath where
  name := "KeyToPath"
  start := ⟨"", "", none⟩
  fields := [
    .plain "key" .string "" key fun a x => { x with key := a },
    .optional "mode" .int32 mode fun a x => { x with mode := a },
    .plain "path" .string "" path fun a x => { x with path := a }]

def codec : Codec KeyToPath := record.lenient

def shape : Shape := .ofCodec .null codec

end KeyToPath

structure SecretVolumeSource where
  secretName : Option String
  isOptional : Option Bool
  items : Option (List KeyToPath)
  defaultMode : Option Int
deriving DecidableEq, Repr

namespace SecretVolumeSource

def record : Record SecretVolumeSource where
  name := "SecretVolumeSource"
  start := ⟨none, none, none, none⟩
  fields := [
    .optional "defaultMode" .int32 defaultMode fun a x => { x with defaultMode := a },
    .optional "items" (.list KeyToPath.codec) items fun a x => { x with items := a },
    .optional "optional" .boolean isOptional fun a x => { x with isOptional := a },
    .optional "secretName" .string secretName fun a x => { x with secretName := a }]

def codec : Codec SecretVolumeSource := record.lenient

end SecretVolumeSource

namespace Volume.Source

/-! ## The other sources -/

def disk (what id : String) : Shape := .record what [(id, .text)]
  [("fsType", .text), ("partition", .int32), ("readOnly", .boolean)]

def azureDisk : Shape := .record "AzureDiskVolumeSource" [("diskName", .text), ("diskURI", .text)]
  [("cachingMode", .text), ("fsType", .text), ("kind", .text), ("readOnly", .boolean)]

def azureFile : Shape := .record "AzureFileVolumeSource"
  [("secretName", .text), ("shareName", .text)] [("readOnly", .boolean)]

def cephfs : Shape := .record "CephFSVolumeSource" [("monitors", .texts)]
  [("path", .text), ("readOnly", .boolean), ("secretFile", .text),
   ("secretRef", LocalObjectReference.shape), ("user", .text)]

def cinder : Shape := .record "CinderVolumeSource" [("volumeID", .text)]
  [("fsType", .text), ("readOnly", .boolean), ("secretRef", LocalObjectReference.shape)]

def configMap : Shape := .record "ConfigMapVolumeSource" [("name", .text)]
  [("defaultMode", .int32), ("items", .list KeyToPath.shape), ("optional", .boolean)] ["name"]

def csi : Shape := .record "CSIVolumeSource" [("driver", .text)]
  [("fsType", .text), ("nodePublishSecretRef", LocalObjectReference.shape),
   ("readOnly", .boolean), ("volumeAttributes", .textDict)]

def downwardFile : Shape := .record "DownwardAPIVolumeFile" [("path", .text)]
  [("fieldRef", EnvVarSource.fieldSelector), ("mode", .int32),
   ("resourceFieldRef", EnvVarSource.resourceFieldSelector)]

def downwardAPI : Shape := .record "DownwardAPIVolumeSource" []
  [("defaultMode", .int32), ("items", .list downwardFile)]

def emptyDir : Shape := .record "EmptyDirVolumeSource" []
  [("medium", .text), ("sizeLimit", .quantity)]

def claimSpec : Shape := .record "PersistentVolumeClaimSpec" []
  [("accessModes", .texts),
   ("dataSource", .record "TypedLocalObjectReference" [("kind", .text), ("name", .text)]
     [("apiGroup", .text)]),
   ("dataSourceRef", .record "TypedObjectReference" [("kind", .text), ("name", .text)]
     [("apiGroup", .text), ("namespace", .text)]),
   ("resources", .record "VolumeResourceRequirements" []
     [("limits", .quantities), ("requests", .quantities)]),
   ("selector", LabelSelector.shape), ("storageClassName", .text),
   ("volumeAttributesClassName", .text), ("volumeMode", .text), ("volumeName", .text)]

def ephemeral : Shape := .record "EphemeralVolumeSource" []
  [("volumeClaimTemplate", .record "PersistentVolumeClaimTemplate" [("spec", claimSpec)]
    [("metadata", ObjectMeta.shape)])]

def fc : Shape := .record "FCVolumeSource" []
  [("fsType", .text), ("lun", .int32), ("readOnly", .boolean), ("targetWWNs", .texts),
   ("wwids", .texts)]

def flexVolume : Shape := .record "FlexVolumeSource" [("driver", .text)]
  [("fsType", .text), ("options", .textDict), ("readOnly", .boolean),
   ("secretRef", LocalObjectReference.shape)]

def flocker : Shape := .record "FlockerVolumeSource" []
  [("datasetName", .text), ("datasetUUID", .text)]

def gitRepo : Shape := .record "GitRepoVolumeSource" [("repository", .text)]
  [("directory", .text), ("revision", .text)]

def glusterfs : Shape := .record "GlusterfsVolumeSource" [("endpoints", .text), ("path", .text)]
  [("readOnly", .boolean)]

def hostPath : Shape := .record "HostPathVolumeSource" [("path", .text)] [("type", .text)]

def image : Shape := .record "ImageVolumeSource" [] [("pullPolicy", .text), ("reference", .text)]

def iscsi : Shape := .record "ISCSIVolumeSource"
  [("iqn", .text), ("lun", .int32), ("targetPortal", .text)]
  [("chapAuthDiscovery", .boolean), ("chapAuthSession", .boolean), ("fsType", .text),
   ("initiatorName", .text), ("iscsiInterface", .text), ("portals", .texts),
   ("readOnly", .boolean), ("secretRef", LocalObjectReference.shape)]

def nfs : Shape := .record "NFSVolumeSource" [("path", .text), ("server", .text)]
  [("readOnly", .boolean)]

def persistentVolumeClaim : Shape := .record "PersistentVolumeClaimVolumeSource"
  [("claimName", .text)] [("readOnly", .boolean)]

def photon : Shape := .record "PhotonPersistentDiskVolumeSource" [("pdID", .text)]
  [("fsType", .text)]

def portworx : Shape := .record "PortworxVolumeSource" [("volumeID", .text)]
  [("fsType", .text), ("readOnly", .boolean)]

def projection : Shape := .record "VolumeProjection" []
  [("clusterTrustBundle", .record "ClusterTrustBundleProjection" [("path", .text)]
     [("labelSelector", LabelSelector.shape), ("name", .text), ("optional", .boolean),
      ("signerName", .text)]),
   ("configMap", .record "ConfigMapProjection" [("name", .text)]
     [("items", .list KeyToPath.shape), ("optional", .boolean)] ["name"]),
   ("downwardAPI", .record "DownwardAPIProjection" [] [("items", .list downwardFile)]),
   ("secret", .record "SecretProjection" [("name", .text)]
     [("items", .list KeyToPath.shape), ("optional", .boolean)] ["name"]),
   ("serviceAccountToken", .record "ServiceAccountTokenProjection" [("path", .text)]
     [("audience", .text), ("expirationSeconds", .int64)])]

def projected : Shape := .record "ProjectedVolumeSource" []
  [("defaultMode", .int32), ("sources", .list projection)]

def quobyte : Shape := .record "QuobyteVolumeSource" [("registry", .text), ("volume", .text)]
  [("group", .text), ("readOnly", .boolean), ("tenant", .text), ("user", .text)]

def rbd : Shape := .record "RBDVolumeSource" [("image", .text), ("monitors", .texts)]
  [("fsType", .text), ("keyring", .text), ("pool", .text), ("readOnly", .boolean),
   ("secretRef", LocalObjectReference.shape), ("user", .text)]

def scaleIO : Shape := .record "ScaleIOVolumeSource"
  [("gateway", .text), ("secretRef", LocalObjectReference.shape), ("system", .text)]
  [("fsType", .text), ("protectionDomain", .text), ("readOnly", .boolean),
   ("sslEnabled", .boolean), ("storageMode", .text), ("storagePool", .text),
   ("volumeName", .text)]

def storageos : Shape := .record "StorageOSVolumeSource" []
  [("fsType", .text), ("readOnly", .boolean), ("secretRef", LocalObjectReference.shape),
   ("volumeName", .text), ("volumeNamespace", .text)]

def vsphere : Shape := .record "VsphereVirtualDiskVolumeSource" [("volumePath", .text)]
  [("fsType", .text), ("storagePolicyID", .text), ("storagePolicyName", .text)]

/-- Every source but a `Secret`, by the name of its member. -/
def others : List (String × Shape) := [
  ("awsElasticBlockStore", disk "AWSElasticBlockStoreVolumeSource" "volumeID"),
  ("azureDisk", azureDisk), ("azureFile", azureFile), ("cephfs", cephfs), ("cinder", cinder),
  ("configMap", configMap), ("csi", csi), ("downwardAPI", downwardAPI), ("emptyDir", emptyDir),
  ("ephemeral", ephemeral), ("fc", fc), ("flexVolume", flexVolume), ("flocker", flocker),
  ("gcePersistentDisk", disk "GCEPersistentDiskVolumeSource" "pdName"), ("gitRepo", gitRepo),
  ("glusterfs", glusterfs), ("hostPath", hostPath), ("image", image), ("iscsi", iscsi),
  ("nfs", nfs), ("persistentVolumeClaim", persistentVolumeClaim),
  ("photonPersistentDisk", photon), ("portworxVolume", portworx), ("projected", projected),
  ("quobyte", quobyte), ("rbd", rbd), ("scaleIO", scaleIO), ("storageos", storageos),
  ("vsphereVolume", vsphere)]

end Volume.Source

structure Volume where
  name : String
  secret : Option SecretVolumeSource
  carried : Carried

namespace Volume

def record : Record Volume where
  name := "Volume"
  start := ⟨"", none, .empty⟩
  fields := [
    .plain "name" .string "" name fun a x => { x with name := a },
    .optional "secret" SecretVolumeSource.codec secret fun a x => { x with secret := a }]
    ++ Field.carriedAll carried (fun a x => { x with carried := a }) Source.others

def codec : Codec Volume := record.lenient

/-- A volume with one file, a key of a `Secret` that the pod may start without. -/
def ofSecretFile (name secretName key : String) : Volume where
  name := name
  secret := some ⟨some secretName, some true, some [⟨key, key, none⟩], none⟩
  carried := .empty

end Volume

structure VolumeMount where
  name : String
  mountPath : String
  subPath : Option String
  readOnly : Option Bool
  carried : Carried

namespace VolumeMount

def record : Record VolumeMount where
  name := "VolumeMount"
  start := ⟨"", "", none, none, .empty⟩
  fields := [
    .plain "mountPath" .string "" mountPath fun a x => { x with mountPath := a },
    .plain "name" .string "" name fun a x => { x with name := a },
    .optional "readOnly" .boolean readOnly fun a x => { x with readOnly := a },
    .optional "subPath" .string subPath fun a x => { x with subPath := a }]
    ++ Field.carriedAll carried (fun a x => { x with carried := a })
      [("mountPropagation", .text), ("recursiveReadOnly", .text), ("subPathExpr", .text)]

def codec : Codec VolumeMount := record.lenient

/-- A single file of a volume, which the container cannot write. -/
def ofFile (name path subPath : String) : VolumeMount :=
  ⟨name, path, some subPath, some true, .empty⟩

end VolumeMount

end SpinFleet
