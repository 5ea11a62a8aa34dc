import ProxySession.Foreign.Build
import ProxySession.Session.Report
import ProxySession.Proofs.Sums
import ProxySession.Proofs.ForeignBodies
import ProxySession.Proofs.Steps
import ProxySession.Proofs.Owners
import ProxySession.Proofs.Accounting
import ProxySession.Proofs.Identity
import ProxySession.Proofs.Finality
import ProxySession.Proofs.GoodHandles
import ProxySession.Proofs.Attribution
import ProxySession.Proofs.Recovery
import ProxySession.Proofs.ContextFailures
import ProxySession.Proofs.CheckerArguments
import ProxySession.Proofs.Lifespan
import ProxySession.Proofs.SessionTracking
import ProxySession.Proofs.TrackedResources
import ProxySession.Proofs.NestedLookups
import ProxySession.Proofs.TokenIdentity
import ProxySession.Proofs.ConversionAccounts
import ProxySession.Proofs.NumberReadings
import ProxySession.Proofs.NestedLists
import ProxySession.Proofs.LazyLists
import ProxySession.Proofs.BigIntegers
import ProxySession.Proofs.KindReadings
import ProxySession.Proofs.Demands
import ProxySession.Proofs.Children
import ProxySession.Proofs.Offsets
import ProxySession.Proofs.HandleNumbers
import ProxySession.Proofs.Views
