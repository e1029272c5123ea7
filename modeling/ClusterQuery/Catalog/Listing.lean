/-!
# Resource listings

What a platform says it serves: under each group and version the resources by plural name, kind and short names. A
coordinate names one resource; `standardListings` is the catalog assumed where none is given.
-/

namespace ClusterQuery

/-- The group, the version and the plural name of a resource. -/
structure Coordinate where
  group : String
  version : String
  resource : String
  deriving DecidableEq, Repr

namespace Coordinate

/-- The group and the version as documents write them; the core group has no name. -/
def apiVersion (coordinate : Coordinate) : String :=
  if coordinate.group = "" then coordinate.version else coordinate.group ++ "/" ++ coordinate.version

/-- The text of a coordinate. -/
def text (coordinate : Coordinate) : String :=
  coordinate.apiVersion ++ "/" ++ coordinate.resource

end Coordinate

/-- One served resource. -/
structure Resource where
  /-- The plural name. -/
  name : String
  kind : String
  shortNames : List String
  namespaced : Bool
  deriving DecidableEq, Repr

/-- The resources served under one group and version. -/
structure Listing where
  groupVersion : String
  resources : List Resource
  deriving DecidableEq, Repr

/-- A namespaced resource. -/
def Resource.inNamespaces (name kind : String) (shortNames : List String) : Resource :=
  ⟨name, kind, shortNames, true⟩

/-- A resource of the whole cluster. -/
def Resource.clusterWide (name kind : String) (shortNames : List String) : Resource :=
  ⟨name, kind, shortNames, false⟩

/-- The common resources of a cluster. -/
def standardListings : List Listing :=
  [⟨"v1",
    [.inNamespaces "pods" "Pod" ["po"], .inNamespaces "services" "Service" ["svc"],
      .inNamespaces "configmaps" "ConfigMap" ["cm"], .inNamespaces "secrets" "Secret" [],
      .inNamespaces "persistentvolumeclaims" "PersistentVolumeClaim" ["pvc"],
      .inNamespaces "serviceaccounts" "ServiceAccount" ["sa"], .clusterWide "namespaces" "Namespace" ["ns"],
      .clusterWide "nodes" "Node" ["no"]]⟩,
    ⟨"apps/v1",
      [.inNamespaces "deployments" "Deployment" ["deploy"], .inNamespaces "replicasets" "ReplicaSet" ["rs"],
        .inNamespaces "statefulsets" "StatefulSet" ["sts"], .inNamespaces "daemonsets" "DaemonSet" ["ds"]]⟩,
    ⟨"batch/v1", [.inNamespaces "jobs" "Job" [], .inNamespaces "cronjobs" "CronJob" ["cj"]]⟩,
    ⟨"networking.k8s.io/v1", [.inNamespaces "ingresses" "Ingress" ["ing"]]⟩]

/-- The first resource that a coordinate names. -/
def resourceAt? (listings : List Listing) (coordinate : Coordinate) : Option Resource :=
  ((listings.filter (·.groupVersion == coordinate.apiVersion)).flatMap (·.resources)).find?
    (·.name == coordinate.resource)

end ClusterQuery
