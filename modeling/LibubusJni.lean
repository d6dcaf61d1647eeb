import LibubusJni.Lib.Machine
import LibubusJni.Lib.CutStream
import LibubusJni.Lib.Ring
import LibubusJni.Lib.Ledger
import LibubusJni.Lib.Links
import LibubusJni.Wire
import LibubusJni.Libubox.List
import LibubusJni.Libubox.Blob
import LibubusJni.Libubox.Avl
import LibubusJni.Libubox.Blobmsg
import LibubusJni.Libubox.BlobBuf
import LibubusJni.Ubusd.Receive
import LibubusJni.Ubusd.Policy
import LibubusJni.Ubusd.Reads
import LibubusJni.Ubusd.MsgBuf
import LibubusJni.Ubusd.Transmit
import LibubusJni.Ubusd.Flow
import LibubusJni.Ubusd.Discard
import LibubusJni.Ubusd.Status
import LibubusJni.Ubusd.Store
import LibubusJni.Ubusd.State
import LibubusJni.Ubusd.Event
import LibubusJni.Ubusd.Object
import LibubusJni.Ubusd.Handlers
import LibubusJni.Ubusd.Linked
import LibubusJni.Ubusd.Effects
import LibubusJni.Ubusd.Lifetime
import LibubusJni.Ubusd.Isolation
import LibubusJni.Ubusd.Notices
import LibubusJni.Ubusd.Outbox
import LibubusJni.Ubusd.EventObject
import LibubusJni.Ubusd.Typed
import LibubusJni.Libubus.Framing
import LibubusJni.Libubus.Dispatch
import LibubusJni.Libubus.Requests
import LibubusJni.Libubus.Matching
import LibubusJni.Libubus.RequestLife
import LibubusJni.Libubus.Waiting
import LibubusJni.Ubusd.Responses
import LibubusJni.Wrapper.Context
import LibubusJni.Wrapper.Returns
import LibubusJni.Wrapper.Frame
import LibubusJni.Poller.Invoker
import LibubusJni.Poller.Model
import LibubusJni.Poller.Moves
import LibubusJni.Poller.Slots
import LibubusJni.Poller.Owners
import LibubusJni.Poller.Wait
import LibubusJni.Poller.Requests
import LibubusJni.Libubus.Invoke
import LibubusJni.Wrapper.Objects
import LibubusJni.Libubus.Reconnect
import LibubusJni.Libubox.Buffer
import LibubusJni.Libubox.Stale
import LibubusJni.Libubox.Reuse
import LibubusJni.Libubox.Twins
import LibubusJni.Libubox.Append
import LibubusJni.Libubox.Fields
import LibubusJni.Libubox.RoundTrip
import LibubusJni.Lib.Json
import LibubusJni.Libubox.BlobmsgJson
import LibubusJni.Libubox.Encoded
import LibubusJni.Libubox.JsonText
import LibubusJni.Libubox.JsonStored
import LibubusJni.Libubox.JsonReading
import LibubusJni.Libubox.JsonRoundTrip
import LibubusJni.Lib.Sorted
import LibubusJni.Libubox.AvlOrder
import LibubusJni.Ubusd.Ids
import LibubusJni.Ubusd.Trees
import LibubusJni.Ubusd.Lookup
import LibubusJni.Ubusd.Scan
import LibubusJni.Libubox.CheckAttr
import LibubusJni.Libubox.Parse
import LibubusJni.Decoded
import LibubusJni.EventDecoded
import LibubusJni.Libubox.JsonShown
import LibubusJni.Wrapper.JsonOut
import LibubusJni.TrueLength
import LibubusJni.Poller.Replies
import LibubusJni.Wrapper.Incoming
import LibubusJni.Lib.Slots
import LibubusJni.Wrapper.Counters
import LibubusJni.Libubus.DataOrder
import LibubusJni.Libubus.Notify
import LibubusJni.Lib.Roster
import LibubusJni.Libubus.NotifyAnswers
import LibubusJni.Wrapper.SentTexts
import LibubusJni.Lib.Heap
import LibubusJni.Libubus.Msgbuf
import LibubusJni.Libubus.GivenBytes
import LibubusJni.Ubusd.References
import LibubusJni.Libubox.ParseFields
import LibubusJni.Libubox.JsonFields
import LibubusJni.Lib.Traversal
import LibubusJni.Wrapper.TypeInfo
import LibubusJni.Wrapper.ObjectType
import LibubusJni.Ubusd.WireLimits
import LibubusJni.Libubus.MsgbufRoom
import LibubusJni.Libubox.Timeouts
import LibubusJni.Libubus.Cancel
import LibubusJni.Libubox.UloopFd
import LibubusJni.BufferWrites
import LibubusJni.Containers
import LibubusJni.Libubox.PutAttrs
import LibubusJni.Ubusd.Sizes
import LibubusJni.Messages
import LibubusJni.WaitFor.Model
import LibubusJni.WaitFor.Decode
import LibubusJni.WaitFor.Daemon
import LibubusJni.WaitFor.Listening
import LibubusJni.WaitFor.Command
import LibubusJni.WaitFor.Run
import LibubusJni.Lib.Alternation
import LibubusJni.Ubusd.Subscriptions
import LibubusJni.Subscribers.Flags
import LibubusJni.Subscribers.Daemon
import LibubusJni.Subscribers.Handlers
import LibubusJni.Subscribers.Steps
import LibubusJni.Subscribers.Run
import LibubusJni.Lib.Tree
import LibubusJni.Libubox.AvlTree
import LibubusJni.Libubox.AvlNodes
import LibubusJni.Libubox.AvlGroups
import LibubusJni.Lib.Simulation
import LibubusJni.Libubox.AvlRun
import LibubusJni.Ubusd.Answers
import LibubusJni.Ubusd.Identity
import LibubusJni.Libubox.Tables
import LibubusJni.Invocation
import LibubusJni.Libubox.ListHead
import LibubusJni.Libubus.Writev
import LibubusJni.Subscription
