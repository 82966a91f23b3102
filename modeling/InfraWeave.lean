import InfraWeave.Defs.PlanSecrecy
import InfraWeave.InternalApi.ProjectConfinement
import InfraWeave.InternalApi.PublishConfinement
import InfraWeave.InternalApi.DescribeDeployment
import InfraWeave.EnvCommon.Immutability
import InfraWeave.EnvCommon.LatestPointer
import InfraWeave.EnvCommon.NameDisjointness
import InfraWeave.EnvCommon.TrackMatches
import InfraWeave.EnvCommon.DependentIndex
import InfraWeave.EnvCommon.DeploymentSelection
import InfraWeave.Lib.DepthFirst
import InfraWeave.EnvCommon.References
import InfraWeave.EnvCommon.ApiInfra
import InfraWeave.EnvCommon.DeploymentIdentity
import InfraWeave.EnvCommon.StackClaims
import InfraWeave.EnvCommon.StackGraph
import InfraWeave.EnvCommon.StackNames
import InfraWeave.EnvCommon.JobExclusion
import InfraWeave.EnvCommon.RegionFaults
import InfraWeave.Gitops.Reconciliation
import InfraWeave.Gitops.WebhookGroups
import InfraWeave.Gitops.Project
import InfraWeave.Gitops.PushEvents
import InfraWeave.EnvCommon.ClaimDependencies
import InfraWeave.InternalApi.Pagination
import InfraWeave.InternalApi.ClaimValidation
import InfraWeave.InternalApi.AnonymousRequests
import InfraWeave.InternalApi.IdentityProvenance
import InfraWeave.TerraformRunner.PolicyGate
import InfraWeave.TerraformRunner.DriftChecks
import InfraWeave.EnvCommon.ApiEvent
import InfraWeave.EnvAwsDirect.Provider
import InfraWeave.EnvCommon.PolicyRegistry
import InfraWeave.Utils.Oci
import InfraWeave.Utils.OciAttestation
import InfraWeave.EnvCommon.DeprecationRuns
import InfraWeave.EnvCommon.PublishedJobs
import InfraWeave.Operator.Requests
import InfraWeave.Operator.Generations
import InfraWeave.Operator.Finalizers
import InfraWeave.Operator.Retries
import InfraWeave.EnvAwsDirect.Queries
import InfraWeave.EnvAzure.Queries
import InfraWeave.EnvCommon.TransactionLimits
import InfraWeave.EnvCommon.TfInputResolver
import InfraWeave.EnvAwsDirect.CentralCreds
import InfraWeave.EnvCommon.ModuleExamples
import InfraWeave.TerraformRunner.Verdicts
import InfraWeave.InternalApi.LivenessCheck
import InfraWeave.EnvCommon.TfProviderMgmt
import InfraWeave.Defs.ResourceChangeCompleteness
import InfraWeave.EnvCommon.CycleDetection
import InfraWeave.Utils.OciSave
import InfraWeave.EnvCommon.LockFiles
import InfraWeave.Gitops.PackagePolling
import InfraWeave.InternalApi.HttpMode
import InfraWeave.EnvAwsDirect.RunnerLaunch
import InfraWeave.EnvCommon.ProviderPins
import InfraWeave.Cli.PollRuns
import InfraWeave.Utils.SortKeys
import InfraWeave.EnvAwsDirect.AttributeValues
import InfraWeave.Utils.Redact
import InfraWeave.EnvCommon.OciReferences
import InfraWeave.InternalApi.QueryParameters
import InfraWeave.InfraweaveTools.ArchiveDiff
import InfraWeave.Defs.TfBlockSurvival
import InfraWeave.EnvCommon.ClaimValues
import InfraWeave.EnvCommon.PlatformVariables
import InfraWeave.InternalApi.DeploymentAddresses
import InfraWeave.Graph.Resolution
import InfraWeave.Graph.Simplification
import InfraWeave.Graph.Configuration
import InfraWeave.Graph.Contents
import InfraWeave.Graph.OrderIndependence
import InfraWeave.Graph.Secrecy
import InfraWeave.EnvAzure.Agreement
import InfraWeave.EnvAzure.StoredAgreement
