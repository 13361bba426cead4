import ThistleOS.Apps.Messenger
import ThistleOS.Apps.Vault.Envelope
import ThistleOS.Apps.Vault.Screens
import ThistleOS.Bitmap
import ThistleOS.Broadcast
import ThistleOS.Bus
import ThistleOS.Bytes
import ThistleOS.CString
import ThistleOS.Component
import ThistleOS.Device
import ThistleOS.EspErr
import ThistleOS.Except
import ThistleOS.FileTree.Requests
import ThistleOS.JsonText
import ThistleOS.Kernel.AppFiles.Streams
import ThistleOS.Kernel.AppLinks.Confined
import ThistleOS.Kernel.AppManager
import ThistleOS.Kernel.AppManager.Callbacks
import ThistleOS.Kernel.AppManager.Capacity
import ThistleOS.Kernel.AppManager.Foreground
import ThistleOS.Kernel.AppManager.Slots
import ThistleOS.Kernel.AppStorage.Replace
import ThistleOS.Kernel.AppstoreClient
import ThistleOS.Kernel.AppstoreClient.Apart
import ThistleOS.Kernel.AppstoreClient.Entries
import ThistleOS.Kernel.AppstoreClient.Stale
import ThistleOS.Kernel.BleScanner.Access
import ThistleOS.Kernel.BleScanner.Table
import ThistleOS.Kernel.BoardConfig
import ThistleOS.Kernel.BurnTimer.Accounts
import ThistleOS.Kernel.BurnTimer.Timing
import ThistleOS.Kernel.ContactManager
import ThistleOS.Kernel.ContactManager.Edits
import ThistleOS.Kernel.ContactManager.Ids
import ThistleOS.Kernel.ContactManager.Vcard
import ThistleOS.Kernel.Crypto
import ThistleOS.Kernel.DataLogger.Export
import ThistleOS.Kernel.DisplayServer
import ThistleOS.Kernel.DriverLoader
import ThistleOS.Kernel.DriverReload
import ThistleOS.Kernel.DriverReload.Trace
import ThistleOS.Kernel.ElfLoader
import ThistleOS.Kernel.ElfLoader.Apps
import ThistleOS.Kernel.ElfLoader.Grants
import ThistleOS.Kernel.ElfLoader.Relaunch
import ThistleOS.Kernel.Epaper
import ThistleOS.Kernel.Event
import ThistleOS.Kernel.GpsTrack
import ThistleOS.Kernel.GpsTrack.Gpx
import ThistleOS.Kernel.HalRegistry
import ThistleOS.Kernel.Ipc
import ThistleOS.Kernel.Manifest
import ThistleOS.Kernel.Manifest.Keys
import ThistleOS.Kernel.Manifest.Permissions
import ThistleOS.Kernel.Manifest.Requirement
import ThistleOS.Kernel.MeshManager
import ThistleOS.Kernel.MiaM10q
import ThistleOS.Kernel.MiaM10q.Timestamp
import ThistleOS.Kernel.MsgCrypto
import ThistleOS.Kernel.MsgCrypto.Returned
import ThistleOS.Kernel.MsgQueue
import ThistleOS.Kernel.MsgQueue.Base64
import ThistleOS.Kernel.MsgQueue.Clock
import ThistleOS.Kernel.MsgQueue.Ids
import ThistleOS.Kernel.MsgQueue.Lookup
import ThistleOS.Kernel.MsgQueue.Order
import ThistleOS.Kernel.MsgQueue.Persistence
import ThistleOS.Kernel.MsgQueue.Split
import ThistleOS.Kernel.Notification
import ThistleOS.Kernel.Notification.Eviction
import ThistleOS.Kernel.OledSsd1306
import ThistleOS.Kernel.Ota
import ThistleOS.Kernel.Ota.Updates
import ThistleOS.Kernel.Permissions
import ThistleOS.Kernel.SecureWipe.Handed
import ThistleOS.Kernel.SecureWipe.Progress
import ThistleOS.Kernel.Signing
import ThistleOS.Kernel.Signing.Streamed
import ThistleOS.Kernel.SosBeacon.Codec
import ThistleOS.Kernel.SosBeacon.Stream
import ThistleOS.Kernel.TapInstaller
import ThistleOS.Kernel.TapInstaller.Outcome
import ThistleOS.Kernel.TapInstaller.Record
import ThistleOS.Kernel.TapInstaller.Written
import ThistleOS.Kernel.Timestamps
import ThistleOS.Kernel.TouchDrivers
import ThistleOS.Kernel.TouchDrivers.Trace
import ThistleOS.Protocol
import ThistleOS.Reader
import ThistleOS.Recovery.AntiRollback
import ThistleOS.Recovery.ArtifactManifest
import ThistleOS.Recovery.ArtifactManifest.Canonical
import ThistleOS.Recovery.Auth
import ThistleOS.Recovery.BoardBundle
import ThistleOS.Recovery.BoardBundle.Collect
import ThistleOS.Recovery.BoardBundle.Digest
import ThistleOS.Recovery.BoardBundle.Plan
import ThistleOS.Recovery.BoundedIo
import ThistleOS.Recovery.BoundedIo.Exact
import ThistleOS.Recovery.BundleTransaction.Activate
import ThistleOS.Recovery.BundleTransaction.Finalize
import ThistleOS.Recovery.BundleTransaction.Install
import ThistleOS.Recovery.BundleTransaction.Reread
import ThistleOS.Recovery.BundleTransaction.Rollback
import ThistleOS.Recovery.Catalog.Objects
import ThistleOS.Recovery.FirmwareSlot
import ThistleOS.Recovery.FirmwareSlot.Written
import ThistleOS.Recovery.Web
import ThistleOS.Strokes
import ThistleOS.Toolkit.Compiler.Cascade
import ThistleOS.Toolkit.Compiler.Css
import ThistleOS.Toolkit.Compiler.Exact
import ThistleOS.Toolkit.Dropdown
import ThistleOS.Toolkit.Layout
import ThistleOS.Toolkit.Layout.Flow
import ThistleOS.Toolkit.Layout.Percent
import ThistleOS.Toolkit.TextInput
import ThistleOS.Toolkit.Touch
import ThistleOS.Toolkit.Tree.Arena
import ThistleOS.Toolkit.Tree.Handles
import ThistleOS.Toolkit.Tree.Order
import ThistleOS.Tools.Sign
import ThistleOS.Xml
import ThistleOS.Xml.Elements
