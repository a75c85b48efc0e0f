import FlowDemo.Lib.LinkedMap
import FlowDemo.Lib.Effects
import FlowDemo.Lib.Exchange
import FlowDemo.Lib.Reporter
import FlowDemo.Js.Value
import FlowDemo.Js.Listeners
import FlowDemo.Js.Answers
import FlowDemo.Props
import FlowDemo.Android.Manager
import FlowDemo.Android.Response
import FlowDemo.Android.Card.View
import FlowDemo.Android.Card.Interleaving
import FlowDemo.Android.Card.Cleanup
import FlowDemo.Android.Card.Correlation
import FlowDemo.Android.Card.Protocol
import FlowDemo.Android.Card.Submit
import FlowDemo.Android.Card.Mounted
import FlowDemo.Android.Card.Height
import FlowDemo.Android.Card.Settling
import FlowDemo.Android.GooglePay.View
import FlowDemo.Android.GooglePay.Deliverable
import FlowDemo.Android.GooglePay.Answers
import FlowDemo.Android.GooglePay.Transactions
import FlowDemo.Android.GooglePay.Cleanup
import FlowDemo.Android.Consumption
import FlowDemo.Android.Cleanup
import FlowDemo.Ios.View
import FlowDemo.Ios.Registry
import FlowDemo.Ios.Machine
import FlowDemo.Ios.Invariant
import FlowDemo.Ios.Submit
import FlowDemo.Ios.Outcome
import FlowDemo.Ios.Bridge
import FlowDemo.Ios.Index
import FlowDemo.Ios.Transactions
import FlowDemo.Ios.Tokenized
import FlowDemo.Ios.TokenizationResult
import FlowDemo.Ios.TokenizationEvent
import FlowDemo.Ios.Mada
import FlowDemo.Ios.CardHeight
import FlowDemo.Js.App
import FlowDemo.Js.AppState
import FlowDemo.Js.AppRuns
import FlowDemo.Js.Screen
import FlowDemo.PayButton
import FlowDemo.Transactions
import FlowDemo.Overlay
import FlowDemo.Android.Flow
import FlowDemo.Ios.Flow
import FlowDemo.Ios.Latest
import FlowDemo.Ios.Promises
import FlowDemo.Dismissal
import FlowDemo.Validity
import FlowDemo.Android.Decode
import FlowDemo.Android.Nulls
import FlowDemo.Android.Card.Outcome
import FlowDemo.Android.Attempts
import FlowDemo.Android.Retry
import FlowDemo.Lib.Relay
import FlowDemo.Lib.Ends
import FlowDemo.Js.Hooks
import FlowDemo.Js.Submission
import FlowDemo.Ios.Reported
import FlowDemo.Ios.Submission
import FlowDemo.Android.Card.Relayout
import FlowDemo.Js.Told
import FlowDemo.Told
import FlowDemo.Android.Card.Submission
import FlowDemo.Sheet
import FlowDemo.Sheet.Commits
import FlowDemo.Android.Card.Sheet
import FlowDemo.Ios.Sheet
import FlowDemo.Ios.Pay
