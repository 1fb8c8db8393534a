import Provisioner.Cloud
import Provisioner.Main
import Provisioner.Proofs.Store.FailedWrite
import Provisioner.Proofs.Store.Sharing
import Provisioner.Proofs.Store.Batches
import Provisioner.Proofs.Operation.Cancellation
import Provisioner.Proofs.Operation.Inputs
import Provisioner.Proofs.Operation.Identity
import Provisioner.Proofs.Operation.Settings
import Provisioner.Proofs.Operation.Creation
import Provisioner.Proofs.Operation.Subscriptions
import Provisioner.Proofs.Pipeline.Attempts
import Provisioner.Proofs.Pipeline.Publication
import Provisioner.Proofs.Pipeline.Names
import Provisioner.Proofs.Azure.Absence
import Provisioner.Proofs.Azure.Showing
import Provisioner.Proofs.Pipeline.Target
import Provisioner.Proofs.Template.Placeholder
import Provisioner.Proofs.Pipeline.Scopes
import Provisioner.Proofs.Records
import Provisioner.Proofs.Override.Order
import Provisioner.Proofs.Store.ReadBack
import Provisioner.Proofs.Azure.ResourceUrl
import Provisioner.Proofs.Template.Dependence
import Provisioner.Proofs.Template.Escape
import Provisioner.Proofs.Store.Backup
import Provisioner.Proofs.Azure.Token
import Provisioner.Proofs.Azure.Freshness
import Provisioner.Proofs.Operation.FreshNames
import Provisioner.Proofs.Pipeline.ScopeParts
